import Multiplextashtic.Connection
import Multiplextashtic.Lib.Interleaving
import Multiplextashtic.ReadLoop

/-! # The stream to a client

The read task, the write task and any number of refreshes write to one client
without a lock. Each of their steps writes one frame at most, and all of it. -/
namespace Multiplextashtic.Client
open Multiplextashtic.Protocol Multiplextashtic.Messages Multiplextashtic.Router
open Multiplextashtic.ConfigReplay Multiplextashtic.ReadLoop Run Extractor

variable {E : Type} {pb : Protobuf E} {w : World} {h h' : ClientHandler E}

/-! ## Who writes what -/

/-- The tasks that write to a client. -/
inductive Writer where
  | read
  | write
  | refresh (i : Nat)
  deriving DecidableEq, Repr

def Source.writer : Source → Writer
  | .request => .read
  | .refresh i => .refresh i
  | .queue => .write
  | .queueStatus => .read
  | .response => .read

/-- The task that takes the step. -/
def ClientEvent.writer (h : ClientHandler E) : ClientEvent → Option Writer
  | .payload _ _ => some .read
  | .resumeRead _ => some .read
  | .hangUp _ => some .read
  | .writeNext => some .write
  | .resumeWrite _ => some .write
  | .refresh => some (.refresh h.refreshes.length)
  | .resumeRefresh i _ => some (.refresh i)
  | .tearDown => none

def ConnEvent.writer (h : ClientHandler E) : ConnEvent → Option Writer
  | .step _ e => e.writer h
  | .put _ => none

/-- The payload whose frame a step writes, with the helper that writes it. -/
def stepWrites (pb : Protobuf E) (h : ClientHandler E) (e : ConnEvent) : Option (Source × Bytes) :=
  (connStep pb h e).bind fun h' => h'.written[h.written.length]?

/-- The payload whose frame a step of the given task writes. -/
def taskWrites (pb : Protobuf E) (task : Writer) (h : ClientHandler E) (e : ConnEvent) :
    Option Bytes :=
  if e.writer h = some task then (stepWrites pb h e).map Prod.snd else none

/-- A payload is put on the client's queue. -/
def putsData (_ : ClientHandler E) : ConnEvent → Option Bytes
  | .step _ _ => none
  | .put data => some data

/-- What the writer has been given: the frames the helpers have encoded, in the order
of their calls. -/
def output (h : ClientHandler E) : Bytes :=
  (h.written.map fun e => (encodeFrame e.2).toOption.getD []).flatten

/-! ## One step -/

/-- A step of `task` writes the frame of a payload, or nothing. -/
inductive WritesFrame (task : Option Writer) (h h' : ClientHandler E) : Prop
  | nothing : h'.written = h.written → WritesFrame task h h'
  | frame {source : Source} {data : Bytes} : task = some source.writer →
      data.length ≤ maxPacketSize → h'.written = h.written ++ [(source, data)] →
      WritesFrame task h h'

theorem length_of_encodeFrame {data f : Bytes} (he : encodeFrame data = .ok f) :
    data.length ≤ maxPacketSize := by
  unfold encodeFrame at he
  split at he
  · cases he
  · next hlen => exact Nat.not_lt.mp hlen

/-- A turn of a replay writes what it has framed. -/
theorem WritesFrame.of_turn {g : ClientHandler E} {source : Source} {turn : Turn}
    (hturn : TurnOf source turn g h') (hsame : g.written = h.written)
    (hlen : ∀ data ∈ turnWrites turn, data.length ≤ maxPacketSize) :
    WritesFrame (some source.writer) h h' := by
  have hw := hturn.written
  rw [hsame] at hw
  cases turn with
  | wrote data r => exact .frame rfl (hlen data List.mem_cons_self) hw
  | returned sent => exact .nothing (hw.trans (List.append_nil _))
  | raised e => exact .nothing (hw.trans (List.append_nil _))

theorem proceed_framed (env : Env) (r : Replay) :
    ∀ data ∈ turnWrites (proceed pb env r), data.length ≤ maxPacketSize := by
  intro data hm
  have hp := proceed_proceeds pb env r
  cases hturn : proceed pb env r with
  | wrote ws r' =>
    rw [hturn] at hp hm
    obtain rfl := List.mem_singleton.mp hm
    cases hp with
    | wrote _ _ he =>
      obtain ⟨-, -, hlen⟩ := encode_eq_ok_iff.mp he
      exact hlen
  | returned | raised =>
    rw [hturn] at hm
    cases hm

theorem replayTurn_framed (w : World) (r : Replay) (lost : Bool) :
    ∀ data ∈ turnWrites (replayTurn pb w r lost), data.length ≤ maxPacketSize := by
  cases lost with
  | false => exact proceed_framed w.env _
  | true =>
    change ∀ data ∈ turnWrites (drainRaised pb w.env r .connectionReset), _
    rcases drainRaised_cases pb w.env r .connectionReset with hraised | ⟨hproceeds, -⟩
    · rw [hraised]
      exact List.forall_mem_nil _
    · rw [hproceeds]
      exact proceed_framed w.env r

theorem sendQueueStatus_frame (h : ClientHandler E) :
    WritesFrame (some .read) h (sendQueueStatus h pb) := by
  unfold sendQueueStatus
  simp only
  split
  · exact .nothing rfl
  · next he => exact .frame rfl (length_of_encodeFrame he) rfl

theorem respond_frame (h : ClientHandler E) (packet : MeshPacket E) (routed : Routed) :
    WritesFrame (some .read) h (respond h packet routed).1 := by
  unfold respond
  split
  · split
    · split
      · exact .nothing rfl
      · next he => exact .frame rfl (length_of_encodeFrame he) rfl
    · exact .nothing rfl
  · exact .nothing rfl

/-- **Every step of a task writes a whole frame, or nothing.** -/
theorem clientStep_frame {e : ClientEvent} {f : Option (Forward E)}
    (hs : clientStep pb w h e = some (h', f)) : WritesFrame (e.writer h) h h' := by
  cases clientStep_stepped hs with
  | @payload payload now _ _ hread hlen hp =>
    have he : (handleToRadio h pb w payload now).1 = h' := congrArg Prod.fst hp
    rcases @handleToRadio_cases E pb h w payload now hread with
      ⟨toRadio, -, -, -, hreq⟩ | ⟨packet, -, hres⟩ | ⟨-, -, hsame | hstatus⟩
    · rw [hreq] at he
      have hturn := readTurn_turnOf (request h toRadio.nonce now)
        (proceed pb w.env (Replay.new w.myNodeNum toRadio.nonce))
      rw [show readTurn _ _ = h' from he] at hturn
      exact .of_turn hturn rfl (proceed_framed w.env _)
    · rw [hres] at he
      exact he ▸ respond_frame h packet _
    · rw [hsame] at he
      exact .nothing (he ▸ rfl)
    · rw [hstatus] at he
      exact he ▸ sendQueueStatus_frame h
  | resumeRead hr =>
    unfold resumeRead at hr
    split at hr
    · cases hr
      exact .of_turn (readTurn_turnOf h _) rfl (replayTurn_framed w _ _)
    · cases hr
      exact .nothing rfl
    · split at hr <;> cases hr <;> exact .nothing rfl
    · cases hr
  | hangUp hg =>
    unfold hangUp at hg
    split at hg <;> cases hg
    exact .nothing rfl
  | writeNext hn =>
    unfold writeNext at hn
    split at hn
    · split at hn
      · cases hn
        exact .nothing rfl
      · next he =>
        cases hn
        exact .frame rfl (length_of_encodeFrame he) rfl
    · cases hn
  | resumeWrite hw =>
    unfold resumeWrite at hw
    split at hw <;> cases hw
    exact .nothing rfl
  | refresh =>
    have hr : refreshConfig h pb w = refreshTurn (beginRefresh h w) h.refreshes.length
        (proceed pb w.env (Replay.new w.myNodeNum 0)) := by
      simp [refreshConfig, beginRefresh]
    have hlen : h.refreshes.length < (beginRefresh h w).refreshes.length := by
      simp [beginRefresh]
    rw [hr]
    exact .of_turn (refreshTurn_turnOf (beginRefresh h w) hlen _) rfl (proceed_framed w.env _)
  | resumeRefresh hr =>
    unfold resumeRefresh at hr
    split at hr <;> cases hr
    next r hr =>
    obtain ⟨hi, -⟩ := List.getElem?_eq_some_iff.mp hr
    exact .of_turn (refreshTurn_turnOf h hi _) rfl (replayTurn_framed w _ _)
  | tearDown ht =>
    unfold tearDown at ht
    split at ht <;> cases ht
    exact .nothing rfl

theorem connStep_frame {e : ConnEvent} (hs : connStep pb h e = some h') :
    WritesFrame (e.writer h) h h' := by
  cases e with
  | step w e =>
    obtain ⟨⟨g, f⟩, hc, rfl⟩ := Option.map_eq_some_iff.mp hs
    exact clientStep_frame hc
  | put data =>
    cases hs
    exact .nothing rfl

/-- The log grows by what a step writes. -/
theorem connStep_written {e : ConnEvent} (hs : connStep pb h e = some h') :
    h'.written = h.written ++ (stepWrites pb h e).toList := by
  rw [stepWrites, hs, Option.bind_some]
  cases connStep_frame hs with
  | nothing hw => simp [hw]
  | frame _ _ hw => simp [hw]

/-- Who a step writes for decides whose payload it is. -/
theorem taskWrites_eq (task : Writer) (h : ClientHandler E) (e : ConnEvent) :
    taskWrites pb task h e =
      (stepWrites pb h e).bind fun x => if x.1.writer = task then some x.2 else none := by
  unfold taskWrites stepWrites
  cases hs : connStep pb h e with
  | none => simp
  | some h' =>
    rw [Option.bind_some]
    cases connStep_frame hs with
    | nothing hw => simp [hw]
    | frame htask _ hw => simp [hw, htask]

theorem queue_of_sameWriter {e : ClientEvent} {f : Option (Forward E)}
    (hs : clientStep pb w h e = some (h', f)) (hw : e ≠ .writeNext) : h'.queue = h.queue := by
  rcases clientStep_writer hs with ⟨hq, -⟩ | ⟨he, -⟩ | ⟨lost, -, hr⟩ | ⟨-, ht⟩
  · exact hq
  · exact absurd he hw
  · unfold resumeWrite at hr
    split at hr <;> cases hr
    rfl
  · unfold tearDown at ht
    split at ht <;> cases ht
    rfl

/-- The write task takes what was put on the queue, in order, and writes all of it. -/
theorem queue_step {e : ConnEvent} (hq : ∀ data ∈ h.queue, data.length ≤ maxPacketSize)
    (hs : connStep pb h e = some h') :
    (taskWrites pb .write h e).toList ++ h'.queue = h.queue ++ (putsData h e).toList := by
  have hsame (hnone : taskWrites pb .write h e = none) (hput : putsData h e = none)
      (hqueue : h'.queue = h.queue) :
      (taskWrites pb .write h e).toList ++ h'.queue = h.queue ++ (putsData h e).toList := by
    rw [hnone, hput, hqueue]
    exact (List.append_nil _).symm
  have hother (hwriter : e.writer h ≠ some .write) : taskWrites pb .write h e = none :=
    if_neg hwriter
  cases e with
  | put data =>
    cases hs
    rw [hother nofun]
    rfl
  | step w e =>
    obtain ⟨⟨g, f⟩, hc, rfl⟩ := Option.map_eq_some_iff.mp hs
    cases e with
    | writeNext =>
      obtain ⟨h₁, hn, heq⟩ := Option.map_eq_some_iff.mp hc
      cases heq
      have hgrows := connStep_written hs
      unfold writeNext at hn
      split at hn
      · next data rest hwait hqueue =>
        rw [hqueue] at hq
        rw [encodeFrame_ok (hq data List.mem_cons_self)] at hn
        cases hn
        have hwrites : stepWrites pb h (.step w .writeNext) = some (.queue, data) := by
          cases ho : stepWrites pb h (.step w .writeNext) with
          | none => simp [log, ho] at hgrows
          | some x => simpa [log, ho, eq_comm] using hgrows
        rw [taskWrites_eq, hwrites, hqueue]
        exact (List.append_nil _).symm
      · cases hn
    | resumeWrite lost =>
      have hrest : g.written = h.written := by
        obtain ⟨h₁, hr, heq⟩ := Option.map_eq_some_iff.mp hc
        cases heq
        unfold resumeWrite at hr
        split at hr <;> cases hr
        rfl
      have hnone : stepWrites pb h (.step w (.resumeWrite lost)) = none := by
        rw [stepWrites, hs, Option.bind_some, hrest]
        exact List.getElem?_eq_none (Nat.le_refl _)
      refine hsame ?_ rfl (queue_of_sameWriter hc (by simp))
      rw [taskWrites_eq, hnone]
      rfl
    | payload | resumeRead | hangUp | refresh | resumeRefresh | tearDown =>
      exact hsame (hother nofun) rfl (queue_of_sameWriter hc (by simp))

/-! ## Runs -/

/-- Repeated `find_frame` takes a stream of frames apart, and nothing is left. -/
theorem drain_frames : ∀ {ps : List Bytes}, (∀ p ∈ ps, p.length ≤ maxPacketSize) →
    drain frames (stream ps) = (ps, [])
  | [], _ => drain_of_none rfl
  | p :: ps, hps => by
    obtain ⟨hp, hps⟩ := List.forall_mem_cons.mp hps
    have hstream : stream (p :: ps) = frame p ++ stream ps := by simp [stream]
    rw [hstream, drain_of_some (findFrame_frame hp _), drain_frames hps]

/-- Frames of payloads that fit. -/
theorem output_eq (hfit : ∀ e ∈ h.written, e.2.length ≤ maxPacketSize) :
    output h = stream (h.written.map Prod.snd) := by
  unfold output stream
  rw [List.map_map]
  congr 1
  refine List.map_congr_left ?_
  intro e he
  rw [encodeFrame_ok (hfit e he)]
  rfl

theorem run_fits (peerIp : String) (es : List ConnEvent)
    (hr : run (connStep pb) { peerIp } es = some h) :
    ∀ e ∈ h.written, e.2.length ≤ maxPacketSize := by
  refine invariant (P := fun h : ClientHandler E => ∀ e ∈ h.written, e.2.length ≤ maxPacketSize)
    ?_ (List.forall_mem_nil _) hr
  intro h e h' hfit hs
  cases connStep_frame hs with
  | nothing hw =>
    rw [hw]
    exact hfit
  | frame _ hlen hw =>
    rw [hw]
    intro x hx
    rcases List.mem_append.mp hx with hx | hx
    · exact hfit x hx
    · rw [List.mem_singleton.mp hx]
      exact hlen

/-- The writes of each task, among all of them. -/
theorem run_writes (peerIp : String) (es : List ConnEvent)
    (hr : run (connStep pb) { peerIp } es = some h) (task : Writer) :
    outputs (connStep pb) (taskWrites pb task) { peerIp } es =
      Interleaving.part (h.written.map fun e => (e.1.writer, e.2)) task := by
  have hstep (h : ClientHandler E) (e : ConnEvent) (h' : ClientHandler E)
      (hs : connStep pb h e = some h') :
      ClientHandler.written h' = ClientHandler.written h ++ (stepWrites pb h e).toList :=
    connStep_written hs
  have hwritten : h.written = [] ++ outputs (connStep pb) (stepWrites pb) { peerIp } es :=
    recorded hstep hr
  rw [outputs_filterMap (taskWrites_eq task), hwritten, List.nil_append]
  generalize outputs (connStep pb) (stepWrites pb) { peerIp } es = written
  induction written with
  | nil => rfl
  | cons x written ih =>
    rw [List.map_cons, Interleaving.part_cons, List.filterMap_cons, ← ih]
    by_cases hx : x.1.writer = task <;> simp [hx]

/-- **What a client is sent are whole frames, an interleaving of what each task has
written.** Whatever the order of the steps, repeated `find_frame` gives the
payloads back and leaves nothing, and if what is put on the queue fits in
frames the write task has written all of it that it does not still hold. -/
theorem run_stream (peerIp : String) (es : List ConnEvent)
    (hr : run (connStep pb) { peerIp } es = some h) :
    drain frames (output h) = (h.written.map Prod.snd, []) ∧
    Interleaving (fun task => outputs (connStep pb) (taskWrites pb task) { peerIp } es)
      (h.written.map Prod.snd) ∧
    ((∀ data, .put data ∈ es → data.length ≤ maxPacketSize) →
      outputs (connStep pb) (taskWrites pb .write) { peerIp } es ++ h.queue =
        outputs (connStep pb) putsData { peerIp } es) := by
  have hfits := run_fits peerIp es hr
  refine ⟨?_, ?_, ?_⟩
  · rw [output_eq hfits]
    refine drain_frames ?_
    intro p hp
    obtain ⟨e, he, rfl⟩ := List.mem_map.mp hp
    exact hfits e he
  · have hparts : (fun task => outputs (connStep pb) (taskWrites pb task) { peerIp } es) =
        Interleaving.part (h.written.map fun e => (e.1.writer, e.2)) :=
      funext fun task => run_writes peerIp es hr task
    have htagged := Interleaving.of_tagged (h.written.map fun e => (e.1.writer, e.2))
    rw [List.map_map] at htagged
    rw [hparts]
    exact htagged
  · intro hput
    refine conserved_along (P := fun h : ClientHandler E => ∀ data ∈ h.queue,
        data.length ≤ maxPacketSize)
      (C := fun _ e => ∀ data, e = .put data → data.length ≤ maxPacketSize) ?_ ?_
      (List.forall_mem_nil _) (along_of_mem fun _ e he data hd => hput data (hd ▸ he)) hr
    · intro h e h' hq he hs data hd
      have hmem : data ∈ h.queue ++ (putsData h e).toList := by
        rw [← queue_step hq hs]
        exact List.mem_append_right _ hd
      rcases List.mem_append.mp hmem with hm | hm
      · exact hq data hm
      · cases e with
        | step w e => cases hm
        | put d =>
          obtain rfl := List.mem_singleton.mp hm
          exact he data rfl
    · intro h e h' hq _ hs
      exact queue_step hq hs

/-- Start bytes in a payload that the write task and a refresh write around the answer to
a heartbeat. -/
def crowded : List ConnEvent :=
  [.put [0x94, 0xC3, 0x00, 0x01], .step emptyWorld .refresh, .step emptyWorld .writeNext,
    .step emptyWorld (.payload (wire.serializeToRadio .heartbeat) 100),
    .step emptyWorld (.resumeRefresh 0 false), .step emptyWorld (.resumeWrite false)]

set_option maxRecDepth 10000 in
theorem run_stream_crowded :
    ∃ h, run (connStep wire) { peerIp := "192.168.1.50" } crowded = some h ∧
      h.written.map Prod.fst = [.refresh 0, .queue, .queueStatus, .refresh 0] ∧
      drain frames (output h) = (h.written.map Prod.snd, []) := by
  have hrun : (run (connStep wire) { peerIp := "192.168.1.50" } crowded).map
      (fun h => h.written.map Prod.fst) =
        some [.refresh 0, .queue, .queueStatus, .refresh 0] := by decide
  obtain ⟨h, hr, hsources⟩ := Option.map_eq_some_iff.mp hrun
  exact ⟨h, hr, hsources, (run_stream _ _ hr).1⟩

end Multiplextashtic.Client

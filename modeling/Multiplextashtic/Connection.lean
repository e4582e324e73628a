import Multiplextashtic.ReplaySteps
import Multiplextashtic.Server
import Multiplextashtic.WireMessages

/-! # One connection

A client's handler by itself: its steps come in any order, each in the world as
it then is, and anything may be broadcast to it in between. Every run of the
server is such a run of each of its handlers. -/
namespace Multiplextashtic.Client
open Multiplextashtic.Protocol Multiplextashtic.Messages Multiplextashtic.Config
open Multiplextashtic.Router Multiplextashtic.ConfigReplay Run

variable {E : Type} {pb : Protobuf E} {w : World} {h h' : ClientHandler E}

inductive ConnEvent where
  | step (w : World) (e : ClientEvent)
  | put (data : Bytes)

def connStep (pb : Protobuf E) (h : ClientHandler E) : ConnEvent → Option (ClientHandler E)
  | .step w e => (clientStep pb w h e).map Prod.fst
  | .put data => some (put h data)

/-! ## What a step does to replays -/

/-- The tasks that run replays. -/
def Source.replays : Source → Bool
  | .request => true
  | .refresh _ => true
  | _ => false

/-- The payloads one task has written. -/
def writesOf (source : Source) (written : List (Source × Bytes)) : List Bytes :=
  (written.filter fun e => e.1 = source).map Prod.snd

@[simp] theorem writesOf_append (source : Source) (written more : List (Source × Bytes)) :
    writesOf source (written ++ more) = writesOf source written ++ writesOf source more := by
  simp [writesOf]

@[simp] theorem writesOf_same (source : Source) (ws : List Bytes) :
    writesOf source (ws.map (source, ·)) = ws := by
  simp [writesOf, List.filter_map, Function.comp_def]

theorem writesOf_eq_nil {source : Source} {written : List (Source × Bytes)}
    (h : ∀ e ∈ written, e.1 ≠ source) : writesOf source written = [] := by
  rw [writesOf, List.map_eq_nil_iff, List.filter_eq_nil_iff]
  intro e he heq
  exact h e he (of_decide_eq_true heq)

/-- Where a task stands that runs replays. -/
inductive Standing where
  | absent
  | free
  | waiting (r : Replay)
  | stopped

def ReadTask.standing : ReadTask E → Standing
  | .replaying r => .waiting r
  | .finished => .stopped
  | .failed _ => .stopped
  | .cancelled => .stopped
  | _ => .free

def RefreshTask.standing : RefreshTask → Standing
  | .replaying r => .waiting r
  | .finished => .free
  | .failed _ => .stopped

def standing (h : ClientHandler E) : Source → Standing
  | .request => h.read.standing
  | .refresh i => h.refreshes[i]?.elim .absent RefreshTask.standing
  | _ => .absent

/-- Nothing that has to do with replays is different, unless the read task has stopped. -/
structure Beside (h h' : ClientHandler E) : Prop where
  configSent : h'.configSent = h.configSent
  lastConfigId : h'.lastConfigId = h.lastConfigId
  lastConfigSentAt : h'.lastConfigSentAt = h.lastConfigSentAt
  refreshes : h'.refreshes = h.refreshes
  read : h'.read.standing = h.read.standing ∨ h'.read.standing = .stopped
  written : ∃ more, h'.written = h.written ++ more ∧ ∀ e ∈ more, e.1.replays = false

/-- A request for the configuration that is not suppressed. -/
def request (h : ClientHandler E) (nonce : UInt32) (now : Time) : ClientHandler E :=
  { h with
    lastConfigId := nonce
    lastConfigSentAt := now
    requested := h.requested ++ [nonce] }

/-- A `refresh_config` before its replay begins. -/
def beginRefresh (h : ClientHandler E) (w : World) : ClientHandler E :=
  { h with
    configSent := false
    lastConfigId := 0
    lastConfigSentAt := 0
    refreshes := h.refreshes ++ [.replaying (Replay.new w.myNodeNum 0)] }

/-- What a step of a connection does to its replays. -/
inductive ReplayStep (pb : Protobuf E) (w : World) (h : ClientHandler E) :
    ClientEvent → ClientHandler E → Prop
  | beside {e : ClientEvent} {h' : ClientHandler E} : Beside h h' → ReplayStep pb w h e h'
  | request {payload : Bytes} {now : Time} {toRadio : ToRadio E} : h.read = .reading →
      pb.parseToRadio payload = some toRadio → toRadio.nonce ≠ 0 →
      throttled h toRadio.nonce now = false →
      ReplayStep pb w h (.payload payload now) (readTurn (request h toRadio.nonce now)
        (proceed pb w.env (Replay.new w.myNodeNum toRadio.nonce)))
  | resumed {r : Replay} {lost : Bool} : h.read = .replaying r →
      ReplayStep pb w h (.resumeRead lost) (readTurn h (replayTurn pb w r lost))
  | refresh : ReplayStep pb w h .refresh
      (refreshTurn (beginRefresh h w) h.refreshes.length
        (proceed pb w.env (Replay.new w.myNodeNum 0)))
  | refreshed {i : Nat} {r : Replay} {lost : Bool} : h.refreshes[i]? = some (.replaying r) →
      ReplayStep pb w h (.resumeRefresh i lost) (refreshTurn h i (replayTurn pb w r lost))

theorem standing_request {r : Replay} (hread : h.read = .replaying r) :
    standing h .request = .waiting r := by
  rw [standing, hread]
  rfl

theorem standing_refresh {i : Nat} {t : RefreshTask} (ht : h.refreshes[i]? = some t) :
    standing h (.refresh i) = t.standing := by
  rw [standing, ht]
  rfl

theorem replays_of_waiting {source : Source} {r : Replay} (hr : standing h source = .waiting r) :
    source.replays = true := by
  cases source with
  | request | refresh => rfl
  | queue | queueStatus | response => cases hr

/-- A new refresh leaves the other tasks where they are. -/
theorem beginRefresh_standing (h : ClientHandler E) (w : World) {source : Source}
    (hne : source ≠ .refresh h.refreshes.length) :
    standing (beginRefresh h w) source = standing h source := by
  cases source with
  | refresh j =>
    have hj : j ≠ h.refreshes.length := fun hj => hne (congrArg Source.refresh hj)
    show (h.refreshes ++ [_])[j]?.elim _ _ = _
    rw [List.getElem?_append]
    split
    · rfl
    · next hlt =>
      rw [List.getElem?_eq_none (by simp; omega), standing,
        List.getElem?_eq_none (by omega)]
  | _ => rfl

theorem Beside.standing (hb : Beside h h') (source : Source) :
    standing h' source = standing h source ∨ standing h' source = .stopped := by
  cases source with
  | request => exact hb.read
  | refresh i =>
    refine .inl ?_
    show h'.refreshes[i]?.elim _ _ = _
    rw [hb.refreshes]
    rfl
  | queue | queueStatus | response => exact .inl rfl

theorem Beside.writes (hb : Beside h h') {source : Source} (hs : source.replays = true) :
    writesOf source h'.written = writesOf source h.written := by
  obtain ⟨more, hw, hmore⟩ := hb.written
  rw [hw, writesOf_append]
  refine (congrArg _ (writesOf_eq_nil ?_)).trans (List.append_nil _)
  intro e he heq
  rw [← heq, hmore e he] at hs
  cases hs

/-- A step that writes nothing. -/
theorem Beside.unwritten (hsent : h'.configSent = h.configSent)
    (hid : h'.lastConfigId = h.lastConfigId) (hat : h'.lastConfigSentAt = h.lastConfigSentAt)
    (hrefreshes : h'.refreshes = h.refreshes)
    (hread : h'.read.standing = h.read.standing ∨ h'.read.standing = .stopped)
    (hwritten : h'.written = h.written) : Beside h h' :=
  ⟨hsent, hid, hat, hrefreshes, hread, [], hwritten.trans (List.append_nil _).symm,
    List.forall_mem_nil _⟩

theorem Beside.refl (h : ClientHandler E) : Beside h h :=
  .unwritten rfl rfl rfl rfl (.inl rfl) rfl

theorem Beside.put (h : ClientHandler E) (data : Bytes) : Beside h (put h data) :=
  .unwritten rfl rfl rfl rfl (.inl rfl) rfl

/-- An answer of the read task that is not part of a replay. -/
theorem Beside.log (hread : h.read = .reading) {source : Source} (hs : source.replays = false)
    (data : Bytes) {read : ReadTask E} (hr : read.standing = .free) :
    Beside h { log h source data with read } := by
  refine ⟨rfl, rfl, rfl, rfl, .inl ?_, [(source, data)], rfl, ?_⟩
  · rw [hread]
    exact hr
  · intro e he
    rw [List.mem_singleton.mp he]
    exact hs

theorem sendQueueStatus_beside (hread : h.read = .reading) : Beside h (sendQueueStatus h pb) := by
  unfold sendQueueStatus
  simp only
  split
  · exact .refl h
  · exact .log hread rfl _ rfl

theorem respond_beside (hread : h.read = .reading) (packet : MeshPacket E) (routed : Routed) :
    Beside h (respond h packet routed).1 := by
  unfold respond
  split
  · split
    · split
      · exact .unwritten rfl rfl rfl rfl (.inr rfl) rfl
      · exact .log hread rfl _ rfl
    · exact .refl h
  · exact .refl h

/-- The packet a payload hands to the router: behind the gate, from a read task
that waits for nothing else. -/
def handedToRouter (pb : Protobuf E) (h : ClientHandler E) (payload : Bytes) :
    Option (MeshPacket E) :=
  match h.read, pb.parseToRadio payload with
  | .reading, some (.packet packet) => if h.configSent then some packet else none
  | _, _ => none

theorem handedToRouter_eq_some {payload : Bytes} {packet : MeshPacket E} :
    handedToRouter pb h payload = some packet ↔
      h.read = .reading ∧ pb.parseToRadio payload = some (.packet packet) ∧
        h.configSent = true := by
  unfold handedToRouter
  constructor
  · intro hh
    split at hh
    · next p hread hparse =>
      split at hh <;> cases hh
      exact ⟨hread, hparse, ‹_›⟩
    · cases hh
  · rintro ⟨hread, hparse, hsent⟩
    rw [hread, hparse, hsent]
    rfl

/-- A payload either asks for the configuration, or is handed to the router, or is
answered or ignored beside both. -/
theorem handleToRadio_cases (h : ClientHandler E) (w : World) (payload : Bytes) (now : Time)
    (hread : h.read = .reading) :
    (∃ toRadio, pb.parseToRadio payload = some toRadio ∧ toRadio.nonce ≠ 0 ∧
      throttled h toRadio.nonce now = false ∧ handleToRadio h pb w payload now =
        (readTurn (request h toRadio.nonce now)
          (proceed pb w.env (Replay.new w.myNodeNum toRadio.nonce)), none)) ∨
    (∃ packet, handedToRouter pb h payload = some packet ∧ handleToRadio h pb w payload now =
      respond h packet (routeFromClient pb w.env.config w.myNodeNum payload h.peerIp)) ∨
    (handedToRouter pb h payload = none ∧ (handleToRadio h pb w payload now).2 = none ∧
      ((handleToRadio h pb w payload now).1 = h ∨
        (handleToRadio h pb w payload now).1 = sendQueueStatus h pb)) := by
  unfold handleToRadio handedToRouter
  cases hparse : pb.parseToRadio payload with
  | none => exact .inr (.inr ⟨by rw [hread], rfl, .inl rfl⟩)
  | some toRadio =>
    simp only [hread]
    by_cases hn : toRadio.nonce = 0
    · rw [if_neg (not_not_intro hn)]
      cases toRadio with
      | packet packet =>
        cases hsent : h.configSent with
        | true => exact .inr (.inl ⟨packet, rfl, rfl⟩)
        | false => exact .inr (.inr ⟨rfl, rfl, .inl rfl⟩)
      | heartbeat => exact .inr (.inr ⟨rfl, rfl, .inr rfl⟩)
      | unset | wantConfigId nonce | disconnect value | other extra =>
        refine .inr (.inr ⟨rfl, ?_⟩)
        simp only
        split
        · exact ⟨rfl, .inl rfl⟩
        · split <;> exact ⟨rfl, .inl rfl⟩
    · rw [if_pos hn]
      cases ht : throttled h toRadio.nonce now with
      | true =>
        refine .inr (.inr ⟨?_, rfl, .inl rfl⟩)
        cases toRadio with
        | packet packet => exact absurd rfl hn
        | _ => rfl
      | false => exact .inl ⟨toRadio, rfl, hn, ht, rfl⟩

/-- What is handed to the router is answered as the router says. -/
theorem handleToRadio_handed {payload : Bytes} {packet : MeshPacket E}
    (hh : handedToRouter pb h payload = some packet) (w : World) (now : Time) :
    handleToRadio h pb w payload now =
      respond h packet (routeFromClient pb w.env.config w.myNodeNum payload h.peerIp) := by
  obtain ⟨hread, hparse, -⟩ := handedToRouter_eq_some.mp hh
  rcases handleToRadio_cases h w payload now hread with
    ⟨toRadio, hparse', hnonce, -⟩ | ⟨packet', hh', hres⟩ | ⟨hnone, -⟩
  · cases hparse.symm.trans hparse'
    exact absurd rfl hnonce
  · cases hh.symm.trans hh'
    exact hres
  · cases hh.symm.trans hnone

/-- `_handle_to_radio` without a call of the router: a replay begins, or the queue
status is sent, or nothing happens. -/
def Unrouted (pb : Protobuf E) (h : ClientHandler E) (w : World) (payload : Bytes) (now : Time) :
    Prop :=
  (handleToRadio h pb w payload now).2 = none ∧
    ((handleToRadio h pb w payload now).1 = h ∨
      (handleToRadio h pb w payload now).1 = sendQueueStatus h pb ∨
      ∃ nonce, (handleToRadio h pb w payload now).1 = readTurn (request h nonce now)
        (proceed pb w.env (Replay.new w.myNodeNum nonce)))

theorem handleToRadio_unrouted {payload : Bytes} (hread : h.read = .reading)
    (hh : handedToRouter pb h payload = none) (w : World) (now : Time) :
    Unrouted pb h w payload now := by
  rcases handleToRadio_cases h w payload now hread with
    ⟨toRadio, -, -, -, hreq⟩ | ⟨packet, hh', -⟩ | ⟨-, hnone, hsame | hstatus⟩
  · unfold Unrouted
    rw [hreq]
    exact ⟨rfl, .inr (.inr ⟨toRadio.nonce, rfl⟩)⟩
  · cases hh.symm.trans hh'
  · exact ⟨hnone, .inl hsame⟩
  · exact ⟨hnone, .inr (.inl hstatus)⟩

/-- **What a step of a connection does to its replays.** -/
theorem clientStep_replays {e : ClientEvent} {f : Option (Forward E)}
    (hs : clientStep pb w h e = some (h', f)) : ReplayStep pb w h e h' := by
  cases clientStep_stepped hs with
  | @payload payload now _ _ hread hlen hp =>
    have he : (handleToRadio h pb w payload now).1 = h' := congrArg Prod.fst hp
    rcases @handleToRadio_cases E pb h w payload now hread with
      ⟨toRadio, hparse, hn, ht, hreq⟩ | ⟨packet, -, hres⟩ | ⟨-, -, hsame | hstatus⟩
    · rw [hreq] at he
      exact he ▸ .request hread hparse hn ht
    · rw [hres] at he
      exact .beside (he ▸ respond_beside hread packet _)
    · rw [hsame] at he
      exact .beside (he ▸ .refl h)
    · rw [hstatus] at he
      exact .beside (he ▸ sendQueueStatus_beside hread)
  | resumeRead hr =>
    unfold resumeRead at hr
    split at hr
    · next r hread => cases hr; exact .resumed hread
    · next hread =>
      cases hr
      exact .beside (.unwritten rfl rfl rfl rfl (.inl (by rw [hread]; rfl)) rfl)
    · next hread =>
      split at hr <;> cases hr
      · exact .beside (.unwritten rfl rfl rfl rfl (.inr rfl) rfl)
      · exact .beside (.unwritten rfl rfl rfl rfl (.inl (by rw [hread]; rfl)) rfl)
    · cases hr
  | @hangUp lost _ hg =>
    unfold hangUp at hg
    split at hg <;> cases hg
    cases lost <;> exact .beside (.unwritten rfl rfl rfl rfl (.inr rfl) rfl)
  | writeNext hn =>
    unfold writeNext at hn
    split at hn
    · split at hn <;> cases hn
      · exact .beside (.unwritten rfl rfl rfl rfl (.inl rfl) rfl)
      · refine .beside ⟨rfl, rfl, rfl, rfl, .inl rfl, [(.queue, _)], rfl, ?_⟩
        intro e he
        rw [List.mem_singleton.mp he]
        rfl
    · cases hn
  | resumeWrite hw =>
    unfold resumeWrite at hw
    split at hw <;> cases hw
    exact .beside (.unwritten rfl rfl rfl rfl (.inl rfl) rfl)
  | refresh =>
    have hr : refreshConfig h pb w = refreshTurn (beginRefresh h w) h.refreshes.length
        (proceed pb w.env (Replay.new w.myNodeNum 0)) := by
      simp [refreshConfig, beginRefresh]
    rw [hr]
    exact .refresh
  | resumeRefresh hr =>
    unfold resumeRefresh at hr
    split at hr <;> cases hr
    next r hr => exact .refreshed hr
  | tearDown ht =>
    unfold tearDown at ht
    split at ht <;> cases ht
    refine .beside (.unwritten rfl rfl rfl rfl ?_ rfl)
    simp only
    split
    · exact .inl rfl
    · exact .inr rfl

/-! ## A turn and the task it belongs to -/

def turnWrites : Turn → List Bytes
  | .wrote data _ => [data]
  | _ => []

def turnReturns : Turn → Bool
  | .returned _ => true
  | _ => false

/-- Where a turn leaves the task it belongs to. -/
def turnStanding : Turn → Standing
  | .wrote _ r => .waiting r
  | .returned _ => .free
  | .raised _ => .stopped

/-- A turn of one task: it writes under the task's source and marks the
configuration as sent when it returns, and leaves the other tasks alone. -/
structure TurnOf (source : Source) (turn : Turn) (h h' : ClientHandler E) : Prop where
  written : h'.written = h.written ++ (turnWrites turn).map (source, ·)
  configSent : h'.configSent = (turnReturns turn || h.configSent)
  own : standing h' source = turnStanding turn
  others : ∀ source', source' ≠ source → standing h' source' = standing h source'

theorem TurnOf.writes {source : Source} {turn : Turn} (ht : TurnOf source turn h h') :
    writesOf source h'.written = writesOf source h.written ++ turnWrites turn := by
  rw [ht.written, writesOf_append, writesOf_same]

theorem TurnOf.others_writes {source source' : Source} {turn : Turn} (ht : TurnOf source turn h h')
    (hne : source' ≠ source) : writesOf source' h'.written = writesOf source' h.written := by
  rw [ht.written, writesOf_append]
  refine (congrArg _ (writesOf_eq_nil ?_)).trans (List.append_nil _)
  intro e he heq
  obtain ⟨data, -, rfl⟩ := List.mem_map.mp he
  exact hne heq.symm

theorem readTurn_turnOf (h : ClientHandler E) (turn : Turn) :
    TurnOf .request turn h (readTurn h turn) := by
  have hothers {read : ReadTask E} (source' : Source) (hne : source' ≠ .request) :
      standing { h with read } source' = standing h source' := by
    cases source' with
    | request => exact absurd rfl hne
    | _ => rfl
  cases turn with
  | wrote data r => exact ⟨rfl, rfl, rfl, hothers⟩
  | returned sent => exact ⟨(List.append_nil _).symm, rfl, rfl, hothers⟩
  | raised e => exact ⟨(List.append_nil _).symm, rfl, rfl, hothers⟩

theorem refreshTurn_turnOf (h : ClientHandler E) {i : Nat} (hi : i < h.refreshes.length)
    (turn : Turn) : TurnOf (.refresh i) turn h (refreshTurn h i turn) := by
  have hothers {t : RefreshTask} (source' : Source) (hne : source' ≠ .refresh i) :
      standing { h with refreshes := h.refreshes.set i t } source' = standing h source' := by
    cases source' with
    | refresh j =>
      have hj : i ≠ j := fun hj => hne (congrArg Source.refresh hj.symm)
      show (h.refreshes.set i t)[j]?.elim _ _ = _
      rw [List.getElem?_set_ne hj]
      rfl
    | _ => rfl
  have hown {t : RefreshTask} :
      standing { h with refreshes := h.refreshes.set i t } (.refresh i) = t.standing :=
    standing_refresh (List.getElem?_set_self hi)
  cases turn with
  | wrote data r => exact ⟨rfl, rfl, hown, hothers⟩
  | returned sent => exact ⟨(List.append_nil _).symm, rfl, hown, hothers⟩
  | raised e => exact ⟨(List.append_nil _).symm, rfl, hown, hothers⟩

/-- The first turn of a replay does not return. -/
theorem proceed_new (pb : Protobuf E) (w : World) (configId : UInt32) :
    turnReturns (proceed pb w.env (Replay.new w.myNodeNum configId)) = false := by
  have hp := proceed_proceeds pb w.env (Replay.new w.myNodeNum configId)
  cases hturn : proceed pb w.env (Replay.new w.myNodeNum configId) with
  | returned sent =>
    rw [hturn] at hp
    cases hp with
    | returned hp => cases hp
  | wrote | raised => rfl

theorem replayTurn_returned {r : Replay} {lost : Bool}
    (ht : turnReturns (replayTurn pb w r lost) = true) : r.phase = .configComplete := by
  have hproceed {r₀ : Replay} (ht : turnReturns (proceed pb w.env r₀) = true) :
      r₀.phase = .configComplete := by
    have hp := proceed_proceeds pb w.env r₀
    cases hturn : proceed pb w.env r₀ with
    | returned sent =>
      rw [hturn] at hp
      cases hp with
      | returned hp => exact hp
    | wrote | raised =>
      rw [hturn] at ht
      cases ht
  cases lost with
  | false =>
    have hphase : r.ack.phase = .configComplete := hproceed ht
    exact hphase
  | true =>
    change turnReturns (drainRaised pb w.env r .connectionReset) = true at ht
    rcases drainRaised_cases pb w.env r .connectionReset with hraised | ⟨hproceeds, -⟩
    · rw [hraised] at ht
      cases ht
    · rw [hproceeds] at ht
      exact hproceed ht

/-! ## Whole replays -/

/-- Whatever the environment, and however a drain ends. -/
def Anyhow (_ : Env) (_ : Option PyError) : Prop := True

/-- All that a replay for `configId` writes, up to its ConfigComplete. -/
def Whole (pb : Protobuf E) (configId : UInt32) (ws : List Bytes) : Prop :=
  ∃ myNodeNum r, Writes pb Anyhow (Replay.new myNodeNum configId) ws r ∧ r.phase = .configComplete

theorem Whole.ends {configId : UInt32} {ws : List Bytes} (hw : Whole pb configId ws) :
    ∃ before id, ws = before ++ [pb.serializeFromRadio ⟨id, .configCompleteId configId⟩] := by
  obtain ⟨myNodeNum, r, hw, hp⟩ := hw
  exact hw.ends Phase.noConfusion hp

/-- A whole replay stands among the writes of one task. -/
def Completed (pb : Protobuf E) (written : List (Source × Bytes)) : Prop :=
  ∃ source configId ws, source.replays = true ∧ Whole pb configId ws ∧
    ws <:+: writesOf source written

/-- The writes end in those of a replay that now waits in `r`. -/
def Trace (pb : Protobuf E) (writes : List Bytes) (r : Replay) : Prop :=
  ∃ myNodeNum configId before ws, writes = before ++ ws ∧
    Writes pb Anyhow (Replay.new myNodeNum configId) ws r

/-- What a task in a replay has written ends in what the replay has written. -/
structure Tracked (pb : Protobuf E) (h : ClientHandler E) : Prop where
  replays : ∀ source r, standing h source = .waiting r → Trace pb (writesOf source h.written) r
  completed : h.configSent = true → Completed pb h.written

theorem Completed.append {written : List (Source × Bytes)} (hc : Completed pb written)
    (more : List (Source × Bytes)) : Completed pb (written ++ more) := by
  obtain ⟨source, configId, ws, hs, hw, hin⟩ := hc
  refine ⟨source, configId, ws, hs, hw, hin.trans ?_⟩
  rw [writesOf_append]
  exact (List.prefix_append _ _).isInfix

theorem replayTurn_eq (w : World) (r : Replay) (lost : Bool) :
    replayTurn pb w r lost = resume pb w.env r (if lost then some .connectionReset else none) := by
  cases lost <;> rfl

theorem Tracked.beside (ht : Tracked pb h) (hb : Beside h h') : Tracked pb h' := by
  refine ⟨?_, ?_⟩
  · intro source r hr
    rw [hb.writes (replays_of_waiting hr)]
    rcases hb.standing source with hold | hold
    · exact ht.replays source r (hold ▸ hr)
    · rw [hold] at hr
      cases hr
  · intro hsent
    obtain ⟨more, hw, -⟩ := hb.written
    rw [hb.configSent] at hsent
    rw [hw]
    exact (ht.completed hsent).append more

/-- A turn of a task keeps track of the replays, if its own replay is tracked into it. -/
theorem Tracked.of_turn {source : Source} {turn : Turn} (hturn : TurnOf source turn h h')
    (hothers : ∀ source' r, source' ≠ source → standing h source' = .waiting r →
      Trace pb (writesOf source' h.written) r)
    (hcompleted : h.configSent = true → Completed pb h.written)
    (hwrote : ∀ data r, turn = .wrote data r → Trace pb (writesOf source h.written ++ [data]) r)
    (hreturned : turnReturns turn = true → Completed pb h.written) : Tracked pb h' := by
  refine ⟨?_, ?_⟩
  · intro source' r hr
    by_cases hne : source' = source
    · subst hne
      rw [hturn.own] at hr
      cases turn with
      | wrote data r' =>
        cases hr
        rw [hturn.writes]
        exact hwrote data r rfl
      | returned sent => cases hr
      | raised e => cases hr
    · rw [hturn.others_writes hne]
      exact hothers source' r hne (hturn.others source' hne ▸ hr)
  · intro hsent
    rw [hturn.configSent, Bool.or_eq_true] at hsent
    rw [hturn.written]
    exact (hsent.elim hreturned hcompleted).append _

/-- The first turn of a replay. -/
theorem Tracked.of_first {source : Source} {configId : UInt32}
    (hturn : TurnOf source (proceed pb w.env (Replay.new w.myNodeNum configId)) h h')
    (hothers : ∀ source' r, source' ≠ source → standing h source' = .waiting r →
      Trace pb (writesOf source' h.written) r)
    (hcompleted : h.configSent = true → Completed pb h.written) : Tracked pb h' := by
  refine .of_turn hturn hothers hcompleted ?_ ?_
  · intro data r he
    exact ⟨w.myNodeNum, configId, _, [data], rfl, .first trivial he⟩
  · intro hreturns
    rw [proceed_new] at hreturns
    cases hreturns

/-- A later turn of a replay. -/
theorem Tracked.resume (ht : Tracked pb h) {source : Source} (hs : source.replays = true)
    {r : Replay} {lost : Bool} (hr : standing h source = .waiting r)
    (hturn : TurnOf source (replayTurn pb w r lost) h h') : Tracked pb h' := by
  obtain ⟨myNodeNum, configId, before, ws, heq, hw⟩ := ht.replays source r hr
  refine .of_turn hturn (fun source' r _ => ht.replays source' r) ht.completed ?_ ?_
  · intro data r' he
    rw [replayTurn_eq] at he
    refine ⟨myNodeNum, configId, before, ws ++ [data], ?_, .next hw trivial he⟩
    rw [heq, List.append_assoc]
  · intro hreturns
    refine ⟨source, configId, ws, hs, ⟨myNodeNum, r, hw, replayTurn_returned hreturns⟩, ?_⟩
    rw [heq]
    exact (List.suffix_append _ _).isInfix

/-- **Every step of a connection keeps track of its replays.** -/
theorem Tracked.step {e : ConnEvent} (ht : Tracked pb h) (hs : connStep pb h e = some h') :
    Tracked pb h' := by
  cases e with
  | put data =>
    cases hs
    exact ht.beside (.put h data)
  | step w e =>
    obtain ⟨⟨g, f⟩, hg, rfl⟩ := Option.map_eq_some_iff.mp hs
    cases clientStep_replays hg with
    | beside hb => exact ht.beside hb
    | @request payload now toRadio hread =>
      exact .of_first (readTurn_turnOf (request h toRadio.nonce now) _)
        (fun source' r _ => ht.replays source' r) ht.completed
    | resumed hread => exact ht.resume rfl (standing_request hread) (readTurn_turnOf _ _)
    | refresh =>
      have hlen : h.refreshes.length < (beginRefresh h w).refreshes.length := by
        simp [beginRefresh]
      refine .of_first (refreshTurn_turnOf (beginRefresh h w) hlen _) ?_ nofun
      intro source' r hne hr
      exact ht.replays source' r (beginRefresh_standing h w hne ▸ hr)
    | refreshed hr =>
      obtain ⟨hi, -⟩ := List.getElem?_eq_some_iff.mp hr
      exact ht.resume rfl (standing_refresh hr) (refreshTurn_turnOf h hi _)

theorem Tracked.new (pb : Protobuf E) (peerIp : String) : Tracked pb { peerIp } := by
  refine ⟨?_, nofun⟩
  intro source r hr
  cases source <;> cases hr

/-- **A packet reaches the router only behind a whole replay**: where the router is
called, the client has been written one, up to its ConfigComplete, and its read task is
in no other; on any other payload the router is not called. -/
theorem run_handedToRouter (peerIp : String) (es : List ConnEvent)
    (hr : run (connStep pb) { peerIp } es = some h) (payload : Bytes) :
    (∀ packet, handedToRouter pb h payload = some packet →
      (∀ w now, handleToRadio h pb w payload now =
        respond h packet (routeFromClient pb w.env.config w.myNodeNum payload h.peerIp)) ∧
      (∃ source configId before id, source.replays = true ∧
        Whole pb configId (before ++ [pb.serializeFromRadio ⟨id, .configCompleteId configId⟩]) ∧
        (before ++ [pb.serializeFromRadio ⟨id, .configCompleteId configId⟩]) <:+:
          writesOf source h.written) ∧
      ∀ r, h.read ≠ .replaying r) ∧
    (h.read = .reading → handedToRouter pb h payload = none →
      ∀ w now, Unrouted pb h w payload now) := by
  have ht : Tracked pb h :=
    invariant (P := Tracked pb) (fun h e h' ht hs => ht.step hs) (.new pb peerIp) hr
  refine ⟨?_, handleToRadio_unrouted⟩
  intro packet hh
  obtain ⟨hread, -, hsent⟩ := handedToRouter_eq_some.mp hh
  obtain ⟨source, configId, ws, hs, hw, hin⟩ := ht.completed hsent
  obtain ⟨before, id, rfl⟩ := hw.ends
  refine ⟨handleToRadio_handed hh, ⟨source, configId, before, id, hs, hw, hin⟩, ?_⟩
  intro r hr
  rw [hread] at hr
  cases hr

/-- A client in a world with nothing cached, that has been sent the node list it
asked for. -/
def emptyWorld : World := ⟨⟨{}, {}, {}⟩, 0x11⟩

def served : List ConnEvent :=
  [.step emptyWorld (.payload (wire.serializeToRadio (.wantConfigId 69421)) 100),
    .step emptyWorld (.resumeRead false), .step emptyWorld (.resumeRead false)]

def somePacket : MeshPacket Unit where
  fromNode := 5
  toNode := 0xFFFFFFFF
  id := 1234
  payloadVariant := .encrypted [0x55]
  rxTime := 0
  rxSnr := 0
  hopLimit := 3
  viaMqtt := false
  publicKey := []
  pkiEncrypted := false
  extra := ()

def packetPayload : Bytes := wire.serializeToRadio (.packet somePacket)

theorem run_handedToRouter_served :
    ∃ h, run (connStep wire) { peerIp := "192.168.1.50" } served = some h ∧
      handedToRouter wire h packetPayload = some somePacket ∧
      (∀ w now, handleToRadio h wire w packetPayload now = respond h somePacket
        (routeFromClient wire w.env.config w.myNodeNum packetPayload h.peerIp)) ∧
      (∀ r, h.read ≠ .replaying r) ∧
      ∀ w now, Unrouted wire h w (wire.serializeToRadio .heartbeat) now := by
  have hrun : (run (connStep wire) { peerIp := "192.168.1.50" } served).map (fun h =>
      (h.read, handedToRouter wire h packetPayload,
        handedToRouter wire h (wire.serializeToRadio .heartbeat))) =
        some (.reading, some somePacket, none) := by decide
  obtain ⟨h, hr, hh⟩ := Option.map_eq_some_iff.mp hrun
  obtain ⟨hread, hhanded, hnone⟩ : h.read = .reading ∧ handedToRouter wire h packetPayload =
      some somePacket ∧ handedToRouter wire h (wire.serializeToRadio .heartbeat) = none := by
    simpa only [Prod.mk.injEq] using hh
  obtain ⟨hroutes, -, hfree⟩ := (run_handedToRouter _ _ hr packetPayload).1 _ hhanded
  exact ⟨h, hr, hhanded, hroutes, hfree, (run_handedToRouter _ _ hr _).2 hread hnone⟩

/-! ## A refresh that fails -/

/-- The step ends a replay of another task than the given one. -/
def completesOther (pb : Protobuf E) (source : Source) (h : ClientHandler E) : ConnEvent → Bool
  | .step w (.resumeRead lost) =>
    match h.read with
    | .replaying r => source ≠ .request && turnReturns (replayTurn pb w r lost)
    | _ => false
  | .step w (.resumeRefresh i lost) =>
    match h.refreshes[i]? with
    | some (.replaying r) => source ≠ .refresh i && turnReturns (replayTurn pb w r lost)
    | _ => false
  | _ => false

/-- The configuration does not count as sent, unless the `i`-th refresh is done. -/
def Unsent (i : Nat) (h : ClientHandler E) : Prop :=
  i < h.refreshes.length ∧ (h.configSent = false ∨ h.refreshes[i]? = some .finished)

/-- Where a turn leaves the refresh it belongs to. -/
def turnTask : Turn → RefreshTask
  | .wrote _ r => .replaying r
  | .returned _ => .finished
  | .raised e => .failed e

theorem refreshTurn_refreshes (h : ClientHandler E) (i : Nat) (turn : Turn) :
    (refreshTurn h i turn).refreshes = h.refreshes.set i (turnTask turn) := by
  cases turn <;> rfl

theorem readTurn_refreshes (h : ClientHandler E) (turn : Turn) :
    (readTurn h turn).refreshes = h.refreshes := by
  cases turn <;> rfl

theorem turnTask_finished {turn : Turn} (ht : turnReturns turn = true) :
    turnTask turn = .finished := by
  cases turn with
  | returned sent => rfl
  | wrote | raised => cases ht

/-- The read task does not make the configuration count as sent, unless a replay of
its own returns. -/
theorem Unsent.readTurn {i : Nat} {turn : Turn} (hu : Unsent i h)
    (ht : turnReturns turn = false) : Unsent i (readTurn h turn) := by
  unfold Unsent
  rw [readTurn_refreshes, (readTurn_turnOf h turn).configSent, ht]
  exact hu

theorem Unsent.step {i : Nat} {e : ConnEvent} (hu : Unsent i h)
    (hc : completesOther pb (.refresh i) h e = false) (hs : connStep pb h e = some h') :
    Unsent i h' := by
  obtain ⟨hi, hsent⟩ := hu
  cases e with
  | put data =>
    cases hs
    exact ⟨hi, hsent⟩
  | step w e =>
    obtain ⟨⟨g, f⟩, hg, rfl⟩ := Option.map_eq_some_iff.mp hs
    cases clientStep_replays hg with
    | beside hb =>
      unfold Unsent
      rw [hb.refreshes, hb.configSent]
      exact ⟨hi, hsent⟩
    | @request payload now toRadio hread =>
      exact Unsent.readTurn (h := request h toRadio.nonce now) ⟨hi, hsent⟩
        (proceed_new pb w toRadio.nonce)
    | @resumed r lost hread =>
      refine Unsent.readTurn ⟨hi, hsent⟩ ?_
      simpa [completesOther, hread] using hc
    | refresh =>
      have hlen : h.refreshes.length < (beginRefresh h w).refreshes.length := by
        simp [beginRefresh]
      refine ⟨?_, .inl ?_⟩
      · rw [refreshTurn_refreshes, List.length_set]
        exact Nat.lt_trans hi hlen
      · rw [(refreshTurn_turnOf (beginRefresh h w) hlen _).configSent, proceed_new]
        rfl
    | @refreshed j r lost hr =>
      obtain ⟨hj, -⟩ := List.getElem?_eq_some_iff.mp hr
      refine ⟨?_, ?_⟩
      · rw [refreshTurn_refreshes, List.length_set]
        exact hi
      · rw [refreshTurn_refreshes, (refreshTurn_turnOf h hj _).configSent]
        by_cases hij : j = i
        · subst hij
          rw [hr] at hsent
          rw [hsent.resolve_right nofun, Bool.or_false, List.getElem?_set_self hj]
          cases hret : turnReturns (replayTurn pb w r lost) with
          | true => exact .inr (congrArg some (turnTask_finished hret))
          | false => exact .inl rfl
        · have hret : turnReturns (replayTurn pb w r lost) = false := by
            simpa [completesOther, hr, Ne.symm hij] using hc
          rw [hret, List.getElem?_set_ne hij]
          exact hsent

/-- **A refresh that fails leaves the client shut out.** Once it has failed, unless
another replay of the client has completed meanwhile, nothing is as it was before
the refresh, and no packet reaches the router. -/
theorem run_refresh_failed (hsent : h.configSent = true) (es : List ConnEvent)
    (hr : run (connStep pb) (refreshConfig h pb w) es = some h')
    (halone : Along (connStep pb)
      (fun g e => completesOther pb (.refresh h.refreshes.length) g e = false)
      (refreshConfig h pb w) es)
    {e : PyError} (hf : h'.refreshes[h.refreshes.length]? = some (.failed e)) :
    ¬ (h'.configSent = h.configSent ∧ h'.lastConfigId = h.lastConfigId ∧
      h'.lastConfigSentAt = h.lastConfigSentAt) ∧
    ∀ payload, handedToRouter pb h' payload = none ∧
      (h'.read = .reading → ∀ w now, Unrouted pb h' w payload now) := by
  have hbegin : refreshConfig h pb w = refreshTurn (beginRefresh h w) h.refreshes.length
      (proceed pb w.env (Replay.new w.myNodeNum 0)) := by
    simp [refreshConfig, beginRefresh]
  have hlen : h.refreshes.length < (beginRefresh h w).refreshes.length := by simp [beginRefresh]
  have hstart : Unsent h.refreshes.length (refreshConfig h pb w) := by
    rw [hbegin]
    refine ⟨?_, .inl ?_⟩
    · rw [refreshTurn_refreshes, List.length_set]
      exact hlen
    · rw [(refreshTurn_turnOf (beginRefresh h w) hlen _).configSent, proceed_new]
      rfl
  obtain ⟨-, hunsent⟩ : Unsent h.refreshes.length h' :=
    invariant_along (P := Unsent h.refreshes.length) (fun h e h' hu hc hs => hu.step hc hs)
      hstart halone hr
  rw [hf] at hunsent
  have hfalse : h'.configSent = false := hunsent.resolve_right nofun
  refine ⟨?_, ?_⟩
  · rintro ⟨hsame, -, -⟩
    rw [hsame, hsent] at hfalse
    cases hfalse
  · intro payload
    have hnone : handedToRouter pb h' payload = none := by
      refine Option.eq_none_iff_forall_ne_some.mpr ?_
      intro packet hh
      obtain ⟨-, -, hsent'⟩ := handedToRouter_eq_some.mp hh
      cases hfalse.symm.trans hsent'
    exact ⟨hnone, fun hread => handleToRadio_unrouted hread hnone⟩

/-- A node whose NodeInfo fits in a frame, but not with all a replay adds to it. -/
def longKeyInfo : NodeInfo where
  num := 5
  user := some ⟨"", "", "", 0, 0, List.replicate 450 7⟩
  position := none
  snr := 0
  lastHeard := 0
  deviceMetrics := none
  viaMqtt := false
  hopsAway := none
  isFavorite := false
  isIgnored := false

def longKeyPayload : Bytes := wire.serializeFromRadio ⟨1, .nodeInfo longKeyInfo⟩

/-- The world once that NodeInfo has arrived. -/
def longKeyWorld : World := ⟨⟨{}, Cache.updateCache wire {} longKeyPayload, {}⟩, 0x11⟩

/-- A refresh in that world fails at the node's message. -/
def refreshFails : List ConnEvent :=
  [.step longKeyWorld .refresh, .step longKeyWorld (.resumeRefresh 0 false),
    .step longKeyWorld (.resumeRefresh 0 false), .step longKeyWorld (.resumeRefresh 0 false)]

set_option maxRecDepth 10000 in
/-- The connection stands, but the packet that was routed before is ignored. -/
theorem run_refresh_shutsOut :
    longKeyPayload.length ≤ maxPacketSize ∧
    (run (connStep wire) { peerIp := "192.168.1.50" } served).map
      (fun h => (h.configSent, h.read, handedToRouter wire h packetPayload)) =
        some (true, .reading, some somePacket) ∧
    (run (connStep wire) { peerIp := "192.168.1.50" } (served ++ refreshFails)).map
      (fun h => (h.refreshes, h.configSent, h.read, handedToRouter wire h packetPayload)) =
        some ([.failed (.valueError "Payload size 524 exceeds MAX_PACKET_SIZE 512")], false,
          .reading, none) := by
  decide

/-- The handler of that client. -/
def servedClient : ClientHandler Unit :=
  (run (connStep wire) { peerIp := "192.168.1.50" } served).getD { peerIp := "192.168.1.50" }

set_option maxRecDepth 10000 in
theorem run_refresh_failed_longKey :
    ∃ h, run (connStep wire) (refreshConfig servedClient wire longKeyWorld) (refreshFails.drop 1) =
      some h ∧ h.read = .reading ∧ ∀ payload, handedToRouter wire h payload = none ∧
        ∀ w now, Unrouted wire h w payload now := by
  have hrun : (run (connStep wire) (refreshConfig servedClient wire longKeyWorld)
      (refreshFails.drop 1)).map (fun h => (h.refreshes[0]?, h.read)) =
        some (some (.failed (.valueError "Payload size 524 exceeds MAX_PACKET_SIZE 512")),
          .reading) := by decide
  obtain ⟨h, hr, hh⟩ := Option.map_eq_some_iff.mp hrun
  obtain ⟨hf, hread⟩ := Prod.mk.inj hh
  obtain ⟨-, hnone⟩ :=
    run_refresh_failed (h := servedClient) (by decide) _ hr (by decide) (show _ = _ from hf)
  exact ⟨h, hr, hread, fun payload => ⟨(hnone payload).1, (hnone payload).2 hread⟩⟩

end Multiplextashtic.Client

namespace Multiplextashtic.Server
open Multiplextashtic.Messages Multiplextashtic.Client Run

variable {E : Type} {pb : Protobuf E} {s : TCPServer E}

/-- **In every run of the server each handler has had a run of its own.** -/
theorem run_connections (config : Config.AppConfig) (es : List Event)
    (hr : run (step pb) (init config) es = some s) :
    ∀ h ∈ s.handlers, ∃ peerIp ces, run (connStep pb) { peerIp } ces = some h := by
  have hmore {h h' : ClientHandler E} (e : ConnEvent) (he : connStep pb h e = some h')
      (hh : ∃ peerIp ces, run (connStep pb) { peerIp } ces = some h) :
      ∃ peerIp ces, run (connStep pb) { peerIp } ces = some h' := by
    obtain ⟨peerIp, ces, hc⟩ := hh
    exact ⟨peerIp, ces ++ [e], run_append.mpr ⟨h, hc, run_cons.mpr ⟨h', he, rfl⟩⟩⟩
  refine invariant (P := fun s : TCPServer E => ∀ h ∈ s.handlers, ∃ peerIp ces,
    run (connStep pb) { peerIp } ces = some h) ?_ (List.forall_mem_nil _) hr
  intro s e s' hi hs
  refine step_forall hs hi ?_ ?_ ?_
  · intro peerIp
    exact ⟨peerIp, [], rfl⟩
  · intro h h' ce f hc
    exact hmore (.step (world s) ce) (by rw [connStep, hc]; rfl)
  · intro data _ h
    exact hmore (.put data) rfl

end Multiplextashtic.Server

import Multiplextashtic.Broadcast
import Multiplextashtic.ConfigComplete
import Multiplextashtic.Lib.Replica
import Multiplextashtic.ReplayCursor

/-! # What a client makes of what it is sent

The physical node tells of its channels and nodes one message at a time. The server
caches what it is told, and hands the message on to the queues of its clients. A replay
looks the cache up and writes to its client at once, ahead of what waits in the queue.
So a client is a replica of the cache: its messages are the changes, and besides the
rows that replays looked up. -/
namespace Multiplextashtic.Client
open Multiplextashtic.Protocol Multiplextashtic.Messages Multiplextashtic.Config
open Multiplextashtic.Cache Multiplextashtic.Capture Multiplextashtic.Router
open Multiplextashtic.ConfigReplay Replica Relation Table

variable {E : Type} {pb : Protobuf E} {w : World} {h h' : ClientHandler E} {e : ClientEvent}
  {f : Option (Forward E)}

/-! ## What is written beside the replays -/

/-- What a client has been written, and then what waits in its queue. -/
def feed (h : ClientHandler E) : List Bytes := h.written.map Prod.snd ++ h.queue

/-- An answer of the read task. -/
inductive Answer : FromRadioVariant E → Prop
  | queueStatus (status : QueueStatus) : Answer (.queueStatus status)
  | ack {packet : MeshPacket E} : packet.portnum = routingApp → Answer (.packet packet)

/-- What a step beside the replays does to what a client is fed. -/
inductive Aside (pb : Protobuf E) (h h' : ClientHandler E) : Prop
  | moved : feed h' = feed h → h'.queue ⊆ h.queue → Aside pb h h'
  | answered {source : Source} {data : Bytes} {fr : FromRadio E} :
      h'.written = h.written ++ [(source, data)] → h'.queue = h.queue →
      pb.parseFromRadio data = some fr → Answer fr.variant → Aside pb h h'
  | dropped {data : Bytes} : h'.written = h.written → h.queue = data :: h'.queue →
      maxPacketSize < data.length → Aside pb h h'

theorem Aside.same (hw : h'.written = h.written) (hq : h'.queue = h.queue) : Aside pb h h' :=
  .moved (by rw [feed, feed, hw, hq]) (hq ▸ List.Subset.refl _)

/-- A turn that wrote was not beside the replays. -/
theorem Aside.of_turn {g : ClientHandler E} {source : Source} {turn : Turn}
    (hb : Beside h h') (hs : source.replays = true) (ht : TurnOf source turn g h')
    (hw : g.written = h.written) (hq : h'.queue = h.queue) : Aside pb h h' := by
  have hwritten := ht.written
  rw [hw] at hwritten
  cases turn with
  | wrote data r =>
    obtain ⟨more, hmore, hother⟩ := hb.written
    have hsame : more = [(source, data)] := List.append_cancel_left (hmore.symm.trans hwritten)
    have hfalse := hother (source, data) (hsame ▸ List.mem_singleton_self _)
    rw [hs] at hfalse
    cases hfalse
  | returned sent => exact .same (hwritten.trans (List.append_nil _)) hq
  | raised e => exact .same (hwritten.trans (List.append_nil _)) hq

theorem buildFakeRoutingAck_parses (hrt : pb.FromRadioRoundTrip) {myNodeNum : NodeNum}
    {requestId : UInt32} {packet : MeshPacket E} {response : Bytes}
    (ha : buildFakeRoutingAck pb myNodeNum requestId packet = .ok response) :
    ∃ fr, pb.parseFromRadio response = some fr ∧ Answer fr.variant := by
  by_cases h1 : "request_id" ∈ pb.routingFields
  · by_cases h2 : "error_reason" ∈ pb.routingFields
    · simp only [buildFakeRoutingAck, setRoutingField, h1, h2, if_true] at ha
      cases ha
      exact ⟨_, hrt _, .ack rfl⟩
    · simp only [buildFakeRoutingAck, setRoutingField, h1, h2, if_true, if_false] at ha
      cases ha
  · simp only [buildFakeRoutingAck, setRoutingField, h1, if_false] at ha
    cases ha

/-- All the router answers is an ack of its own. -/
theorem routeFromClient_answer (hrt : pb.FromRadioRoundTrip) {config : AppConfig}
    {myNodeNum : NodeNum} {payload : Bytes} {clientIp : String} {response : Bytes}
    (ha : (routeFromClient pb config myNodeNum payload clientIp).clientResponse = some response) :
    ∃ fr, pb.parseFromRadio response = some fr ∧ Answer fr.variant := by
  by_cases hx : ∃ packet, pb.parseToRadio payload = some (.packet packet)
  · obtain ⟨packet, hp⟩ := hx
    rw [routeFromClient_packet hp] at ha
    by_cases hport : packet.portnum = adminApp
    · cases hg : adminGate config packet clientIp with
      | false =>
        rw [routePacket_gate hport hg] at ha
        cases ha
      | true =>
        rw [routePacket_admin hport hg] at ha
        split at ha
        · split at ha
          · next routed hi =>
            rcases interceptAdmin_some hi with ⟨num, ack, -, hb, rfl⟩ | ⟨-, rfl⟩
            · cases ha
              exact buildFakeRoutingAck_parses hrt hb
            · cases ha
          · cases ha
        · cases ha
    · rw [routePacket_other hport] at ha
      cases ha
  · rw [routeFromClient_not_packet fun packet hp => hx ⟨packet, hp⟩] at ha
    cases ha

theorem respond_aside (packet : MeshPacket E) {routed : Routed}
    (ha : ∀ response, routed.clientResponse = some response →
      ∃ fr, pb.parseFromRadio response = some fr ∧ Answer fr.variant) :
    Aside pb h (respond h packet routed).1 := by
  unfold respond
  split
  · next response hresp =>
    split
    · split
      · exact .same rfl rfl
      · obtain ⟨fr, hfr, hanswer⟩ := ha response hresp
        exact .answered rfl rfl hfr hanswer
    · exact .same rfl rfl
  · exact .same rfl rfl

theorem sendQueueStatus_aside (hrt : pb.FromRadioRoundTrip) :
    Aside pb h (sendQueueStatus h pb) := by
  unfold sendQueueStatus
  simp only
  split
  · exact .same rfl rfl
  · exact .answered rfl rfl (hrt _) (.queueStatus _)

theorem writeNext_aside (hs : writeNext h = some h') : Aside pb h h' := by
  unfold writeNext at hs
  split at hs
  · next data rest _ hq =>
    split at hs <;> cases hs
    · next he =>
      refine .dropped rfl hq ?_
      unfold encodeFrame at he
      split at he
      · next hlen => exact hlen
      · cases he
    · refine .moved ?_ ?_
      · show (h.written ++ [(Source.queue, data)]).map Prod.snd ++ rest = _ ++ h.queue
        rw [hq, List.map_append, List.append_assoc]
        rfl
      · rw [hq]
        exact List.subset_cons_self _ _
  · cases hs

/-- **A step beside the replays** moves a message on, answers, or drops what does not fit. -/
theorem clientStep_aside (hrt : pb.FromRadioRoundTrip) (hb : Beside h h')
    (hs : clientStep pb w h e = some (h', f)) : Aside pb h h' := by
  cases clientStep_stepped hs with
  | @payload payload now _ _ hread hlen hp =>
    have he : (handleToRadio h pb w payload now).1 = h' := congrArg Prod.fst hp
    rcases @handleToRadio_cases E pb h w payload now hread with
      ⟨toRadio, -, -, -, hreq⟩ | ⟨packet, -, hres⟩ | ⟨-, -, hsame | hstatus⟩
    · rw [hreq] at he
      subst he
      exact .of_turn hb rfl (readTurn_turnOf (request h toRadio.nonce now) _) rfl
        (readTurn_writer (request h toRadio.nonce now) _).1
    · rw [hres] at he
      exact he ▸ respond_aside packet fun _ => routeFromClient_answer hrt
    · rw [hsame] at he
      exact he ▸ .same rfl rfl
    · rw [hstatus] at he
      exact he ▸ sendQueueStatus_aside hrt
  | resumeRead hr =>
    unfold resumeRead at hr
    split at hr
    · cases hr
      exact .of_turn hb rfl (readTurn_turnOf h _) rfl (readTurn_writer h _).1
    · cases hr
      exact .same rfl rfl
    · split at hr <;> cases hr <;> exact .same rfl rfl
    · cases hr
  | hangUp hg =>
    unfold hangUp at hg
    split at hg <;> cases hg
    exact .same rfl rfl
  | writeNext hn => exact writeNext_aside hn
  | resumeWrite hw =>
    unfold resumeWrite at hw
    split at hw <;> cases hw
    exact .same rfl rfl
  | refresh =>
    have hlen : h.refreshes.length < (beginRefresh h w).refreshes.length := by simp [beginRefresh]
    have heq : refreshConfig h pb w = refreshTurn (beginRefresh h w) h.refreshes.length
        (proceed pb w.env (Replay.new w.myNodeNum 0)) := by
      simp [refreshConfig, beginRefresh]
    rw [heq] at hb ⊢
    exact .of_turn hb rfl (refreshTurn_turnOf _ hlen _) rfl (refreshTurn_writer _ _ _).1
  | @resumeRefresh i lost _ hr =>
    unfold resumeRefresh at hr
    split at hr <;> cases hr
    next r hr =>
    obtain ⟨hi, -⟩ := List.getElem?_eq_some_iff.mp hr
    exact .of_turn hb rfl (refreshTurn_turnOf h hi _) rfl (refreshTurn_writer h i _).1
  | tearDown ht =>
    unfold tearDown at ht
    split at ht <;> cases ht
    exact .same rfl rfl

/-! ## Views of the cache -/

/-- A part of the cache as clients are shown it. A message may tell a row, and `current` is
what the cache has for a key. Where replays find what they rely on (`Fit`), `Stands` says
what a replay has told so far, and `Covers` what it has told when it is over, for the
nonces for which it tells all (`full`). -/
structure View (E α K : Type) where
  tells : FromRadioVariant E → Option α
  key : α → K
  current : StateCache → K → Option α
  Fit : World → Prop
  Stands : World → List α → Replay → Prop
  Covers : StateCache → List α → Prop
  full : UInt32 → Prop

variable {α K : Type} {v : View E α K} {t t' : List α} {r r' : Replay}
  {variant : FromRadioVariant E} {phase : Phase} {data : Bytes}

/-- The rows in the messages. -/
def View.told (v : View E α K) (pb : Protobuf E) (ws : List Bytes) : List α :=
  (received pb ws).filterMap v.tells

theorem View.told_append (v : View E α K) (pb : Protobuf E) (ws ws' : List Bytes) :
    v.told pb (ws ++ ws') = v.told pb ws ++ v.told pb ws' := by
  rw [told, received, List.filterMap_append, List.filterMap_append]
  rfl

theorem View.told_singleton (v : View E α K) {fr : FromRadio E}
    (hfr : pb.parseFromRadio data = some fr) : v.told pb [data] = (v.tells fr.variant).toList := by
  have hreceived : received pb [data] = [fr.variant] := by simp [received, hfr]
  rw [told, hreceived]
  cases hv : v.tells fr.variant <;> simp [hv]

/-- What a replay sends of the rows is what the cache has, and it goes on to stand where it
should. -/
structure View.Lawful (v : View E α K) (pb : Protobuf E) : Prop where
  answer : ∀ {variant}, Answer variant → v.tells variant = none
  mono : ∀ {w t t' r}, v.Stands w t r → t ⊆ t' → v.Stands w t' r
  covers_mono : ∀ {cache t t'}, v.Covers cache t → t ⊆ t' → v.Covers cache t'
  start : ∀ {w t} configId, v.Fit w → v.Stands w t (Replay.new w.myNodeNum configId)
  ack : ∀ {w t r} sent, v.Stands w t r → v.Stands w t { r with sent }
  skips : ∀ {w t r r'}, v.Fit w → Skips pb w.env r r' → v.Stands w t r → v.Stands w t r'
  current : ∀ {w t r variant phase}, v.Fit w → Emits pb w.env r variant phase → v.Stands w t r →
    ∀ a, v.tells variant = some a → v.current w.env.cache (v.key a) = some a
  emits : ∀ {w t r variant phase}, v.Fit w → Emits pb w.env r variant phase → v.Stands w t r →
    v.Stands w (t ++ (v.tells variant).toList) (r.wrote phase)
  completes : ∀ {w t r nonce phase}, v.Fit w → Emits pb w.env r (.configCompleteId nonce) phase →
    v.Stands w t r → v.full nonce → v.Covers w.env.cache t

/-- What a turn of a replay writes. -/
structure Shows (pb : Protobuf E) (v : View E α K) (w : World) (t : List α) (data : Bytes)
    (r : Replay) : Prop where
  current : ∀ a ∈ v.told pb [data], v.current w.env.cache (v.key a) = some a
  stands : v.Stands w (t ++ v.told pb [data]) r
  covers : ∀ nonce, announcement pb data = some nonce → v.full nonce → v.Covers w.env.cache t

section
variable (hrt : pb.FromRadioRoundTrip) (hv : v.Lawful pb) (hfit : v.Fit w)
include hrt hv hfit

theorem proceed_shows (hr : v.Stands w t r) (hp : proceed pb w.env r = .wrote data r') :
    Shows pb v w t data r' := by
  have hproceeds := proceed_proceeds pb w.env r
  rw [hp] at hproceeds
  cases hproceeds with
  | @wrote r₁ variant phase _ hskips hem he =>
    have hr₁ : v.Stands w t r₁ := by
      clear hem he hp
      induction hskips with
      | refl => exact hr
      | tail _ hs ih => exact hv.skips hfit hs ih
    have hparse := encode_parses hrt he
    refine ⟨?_, ?_, ?_⟩
    · intro a ha
      rw [v.told_singleton hparse, Option.mem_toList] at ha
      exact hv.current hfit hem hr₁ a ha
    · rw [v.told_singleton hparse]
      exact hv.emits hfit hem hr₁
    · intro nonce hnonce hfull
      rw [announcement, hparse, Option.bind_some] at hnonce
      cases variant with
      | configCompleteId n =>
        cases hnonce
        exact hv.completes hfit hem hr₁ hfull
      | _ => cases hnonce

theorem replayTurn_shows (hr : v.Stands w t r) {lost : Bool}
    (hp : replayTurn pb w r lost = .wrote data r') : Shows pb v w t data r' := by
  cases lost with
  | false => exact proceed_shows hrt hv hfit (r := { r with sent := r.sent + 1 }) (hv.ack _ hr) hp
  | true =>
    change drainRaised pb w.env r .connectionReset = _ at hp
    rcases drainRaised_cases pb w.env r .connectionReset with hraised | ⟨hproceeds, -⟩
    · rw [hraised] at hp
      cases hp
    · exact proceed_shows hrt hv hfit hr (hproceeds ▸ hp)

end

/-! ## A client as a replica -/

variable [DecidableEq K]

/-- The client has been told by a replay that its configuration is complete. -/
def Configured (pb : Protobuf E) (h : ClientHandler E) (nonce : UInt32) : Prop :=
  ∃ e ∈ h.written, e.1.replays = true ∧ announcement pb e.2 = some nonce

/-- A client as a replica of the cache. -/
structure Viewed (pb : Protobuf E) (v : View E α K) (w : World) (h : ClientHandler E) : Prop where
  agrees : ∀ k, Agrees v.key (v.current w.env.cache) (v.told pb (feed h)) k
  stands : ∀ source r, standing h source = .waiting r → v.Stands w (v.told pb (feed h)) r
  covers : ∀ nonce, Configured pb h nonce → v.full nonce → v.Covers w.env.cache (v.told pb (feed h))
  fits : ∀ data ∈ h.queue, v.told pb [data] ≠ [] → data.length ≤ maxPacketSize

/-- No replay has gone on, and no row has been told. -/
theorem Viewed.keep (hh : Viewed pb v w h) (ht : v.told pb (feed h') = v.told pb (feed h))
    (hstanding : ∀ source, standing h' source = standing h source ∨ standing h' source = .stopped)
    (hwritten : ∀ e ∈ h'.written, e.1.replays = true → e ∈ h.written)
    (hqueue : h'.queue ⊆ h.queue) : Viewed pb v w h' := by
  refine ⟨?_, ?_, ?_, ?_⟩
  · rw [ht]
    exact hh.agrees
  · intro source r hr
    rw [ht]
    rcases hstanding source with hold | hold
    · exact hh.stands source r (hold ▸ hr)
    · rw [hold] at hr
      cases hr
  · intro nonce ⟨e, he, hreplays, hnonce⟩
    rw [ht]
    exact hh.covers nonce ⟨e, hwritten e he hreplays, hreplays, hnonce⟩
  · intro data hdata
    exact hh.fits data (hqueue hdata)

/-- A step beside the replays. -/
theorem Viewed.aside (hv : v.Lawful pb) (hh : Viewed pb v w h) (hb : Beside h h')
    (ha : Aside pb h h') : Viewed pb v w h' := by
  have hwritten : ∀ e ∈ h'.written, e.1.replays = true → e ∈ h.written := by
    obtain ⟨more, hmore, hother⟩ := hb.written
    intro e he hreplays
    rw [hmore] at he
    refine (List.mem_append.mp he).resolve_right ?_
    intro he
    rw [hother e he] at hreplays
    cases hreplays
  cases ha with
  | moved hfeed hqueue => exact hh.keep (hfeed ▸ rfl) hb.standing hwritten hqueue
  | @answered source data fr hw hq hfr hanswer =>
    refine hh.keep ?_ hb.standing hwritten (hq ▸ List.Subset.refl _)
    have hnone : v.told pb [data] = [] := by
      rw [v.told_singleton hfr, hv.answer hanswer]
      rfl
    rw [feed, feed, hw, hq, List.map_append, v.told_append, v.told_append, v.told_append]
    show _ ++ v.told pb [data] ++ _ = _
    rw [hnone, List.append_nil]
  | @dropped data hw hq hlen =>
    refine hh.keep ?_ hb.standing hwritten (hq ▸ List.subset_cons_self _ _)
    have hnone : v.told pb [data] = [] := by
      by_contra htold
      exact Nat.not_lt.mpr (hh.fits data (hq ▸ List.mem_cons_self) htold) hlen
    rw [feed, feed, hw, hq, ← List.singleton_append, v.told_append, v.told_append, v.told_append,
      hnone, List.nil_append]

/-- **A turn of a replay**, from a task that was free or stood in it. -/
theorem Viewed.turn (hv : v.Lawful pb) (hh : Viewed pb v w h) {source : Source} {turn : Turn}
    (hsource : source.replays = true) (ht : TurnOf source turn h h') (hq : h'.queue = h.queue)
    (hshows : ∀ data r, turn = .wrote data r → Shows pb v w (v.told pb (feed h)) data r) :
    Viewed pb v w h' := by
  have hunwritten (hw : h'.written = h.written) (hown : ∀ r, standing h' source ≠ .waiting r) :
      Viewed pb v w h' := by
    have hfeed : feed h' = feed h := by rw [feed, feed, hw, hq]
    refine ⟨?_, ?_, ?_, ?_⟩
    · rw [hfeed]
      exact hh.agrees
    · intro source' r hr
      rw [hfeed]
      by_cases hne : source' = source
      · subst hne
        exact absurd hr (hown r)
      · exact hh.stands source' r (ht.others source' hne ▸ hr)
    · intro nonce hnonce
      rw [hfeed]
      exact hh.covers nonce (by rwa [Configured, hw] at hnonce)
    · rw [hq]
      exact hh.fits
  have hown := ht.own
  cases turn with
  | returned sent =>
    refine hunwritten (ht.written.trans (List.append_nil _)) ?_
    intro r hr
    rw [hown] at hr
    cases hr
  | raised e =>
    refine hunwritten (ht.written.trans (List.append_nil _)) ?_
    intro r hr
    rw [hown] at hr
    cases hr
  | wrote data r =>
    obtain ⟨hcurrent, hstands, hcovers⟩ := hshows data r rfl
    have hw : h'.written = h.written ++ [(source, data)] := ht.written
    let before := v.told pb (h.written.map Prod.snd)
    let after := v.told pb h.queue
    have hold : v.told pb (feed h) = before ++ after := v.told_append ..
    have hnew : v.told pb (feed h') = before ++ v.told pb [data] ++ after := by
      rw [feed, hw, hq, List.map_append, v.told_append, v.told_append]
      rfl
    have hmore : v.told pb (feed h) ++ v.told pb [data] ⊆ v.told pb (feed h') := by
      rw [hold, hnew]
      intro a ha
      simp only [List.mem_append] at ha ⊢
      tauto
    have hsub : v.told pb (feed h) ⊆ v.told pb (feed h') :=
      fun a ha => hmore (List.mem_append_left _ ha)
    refine ⟨?_, ?_, ?_, ?_⟩
    · intro k
      have hagrees := hh.agrees k
      rw [hold] at hagrees
      rw [hnew]
      exact hagrees.lookup hcurrent
    · intro source' r' hr
      by_cases hne : source' = source
      · subst hne
        rw [hown] at hr
        cases hr
        exact hv.mono hstands hmore
      · exact hv.mono (hh.stands source' r' (ht.others source' hne ▸ hr)) hsub
    · intro nonce ⟨e, he, hreplays, hnonce⟩ hfull
      rw [hw] at he
      rcases List.mem_append.mp he with he | he
      · exact hv.covers_mono (hh.covers nonce ⟨e, he, hreplays, hnonce⟩ hfull) hsub
      · rw [List.mem_singleton.mp he] at hnonce
        exact hv.covers_mono (hcovers nonce hnonce hfull) hsub
    · rw [hq]
      exact hh.fits

/-- **A step of the connection keeps the client a replica.** -/
theorem Viewed.step (hrt : pb.FromRadioRoundTrip) (hv : v.Lawful pb) (hfit : v.Fit w)
    (hh : Viewed pb v w h) (hs : clientStep pb w h e = some (h', f)) : Viewed pb v w h' := by
  cases clientStep_replays hs with
  | beside hb => exact hh.aside hv hb (clientStep_aside hrt hb hs)
  | @request payload now toRadio hread hparse hnonce hthrottled =>
    have hsame : Viewed pb v w (request h toRadio.nonce now) :=
      ⟨hh.agrees, hh.stands, hh.covers, hh.fits⟩
    refine hsame.turn hv rfl (readTurn_turnOf _ _) (readTurn_writer _ _).1 ?_
    intro data r hturn
    exact proceed_shows hrt hv hfit (hv.start _ hfit) hturn
  | @resumed r lost hread =>
    refine hh.turn hv rfl (readTurn_turnOf h _) (readTurn_writer _ _).1 ?_
    intro data r' hturn
    exact replayTurn_shows hrt hv hfit (hh.stands .request r (standing_request hread)) hturn
  | refresh =>
    have hlen : h.refreshes.length < (beginRefresh h w).refreshes.length := by simp [beginRefresh]
    have hsame : Viewed pb v w (beginRefresh h w) := by
      refine ⟨hh.agrees, ?_, hh.covers, hh.fits⟩
      intro source r hr
      by_cases hne : source = .refresh h.refreshes.length
      · have hwaits : standing (beginRefresh h w) (.refresh h.refreshes.length) =
            .waiting (Replay.new w.myNodeNum 0) :=
          standing_refresh (t := .replaying (Replay.new w.myNodeNum 0)) (by simp [beginRefresh])
        rw [hne, hwaits] at hr
        cases hr
        exact hv.start _ hfit
      · exact hh.stands source r (beginRefresh_standing h w hne ▸ hr)
    refine hsame.turn hv rfl (refreshTurn_turnOf _ hlen _) (refreshTurn_writer _ _ _).1 ?_
    intro data r hturn
    exact proceed_shows hrt hv hfit (hv.start _ hfit) hturn
  | @refreshed i r lost hr =>
    obtain ⟨hi, -⟩ := List.getElem?_eq_some_iff.mp hr
    refine hh.turn hv rfl (refreshTurn_turnOf h hi _) (refreshTurn_writer _ _ _).1 ?_
    intro data r' hturn
    exact replayTurn_shows hrt hv hfit (hh.stands (.refresh i) r (standing_refresh hr)) hturn

/-- A new client has been told nothing. -/
theorem Viewed.new (w : World) (peerIp : String) : Viewed pb v w { peerIp } := by
  refine ⟨?_, ?_, ?_, ?_⟩
  · exact agrees_nil
  · intro source r hr
    cases source <;> cases hr
  · intro nonce ⟨e, he, _⟩
    cases he
  · exact fun _ hdata => nomatch hdata

/-! ## The cache changes -/

variable {w' : World} {more : List α}

/-- What a step does to a view. The rows it hands on are the changes of the cache, and a
waiting replay of the client stands where it stood. -/
structure Moves (v : View E α K) (h : ClientHandler E) (w w' : World) (more : List α) : Prop where
  fit : v.Fit w'
  current : ∀ k, v.current w'.env.cache k = (lastOf v.key more k).or (v.current w.env.cache k)
  stands : ∀ t source r, standing h source = .waiting r → v.Stands w t r →
    v.Stands w' (t ++ more) r
  covers : ∀ t, v.Covers w.env.cache t → v.Covers w'.env.cache (t ++ more)

theorem Moves.refl (hfit : v.Fit w) : Moves v h w w [] := by
  refine ⟨hfit, fun _ => rfl, ?_, ?_⟩
  · intro t source r _ ht
    rwa [List.append_nil]
  · intro t ht
    rwa [List.append_nil]

/-- The cache has changed, and the client is told. -/
theorem Viewed.moved (hh : Viewed pb v w h) (hm : Moves v h w w' more) {data : Option Bytes}
    (htold : v.told pb data.toList = more)
    (hfits : ∀ d ∈ data, v.told pb [d] ≠ [] → d.length ≤ maxPacketSize) :
    Viewed pb v w' (data.elim h (put h)) := by
  have hfeed : v.told pb (feed (data.elim h (put h))) = v.told pb (feed h) ++ more := by
    rw [← htold, ← v.told_append]
    cases data with
    | none => exact congrArg _ (List.append_nil _).symm
    | some d => exact congrArg _ (List.append_assoc ..).symm
  have hstanding (source : Source) :
      standing (data.elim h (put h)) source = standing h source := by
    cases data with
    | none => rfl
    | some d => cases source <;> rfl
  have hwritten : (data.elim h (put h)).written = h.written := by cases data <;> rfl
  refine ⟨?_, ?_, ?_, ?_⟩
  · intro k
    rw [hfeed]
    exact (hh.agrees k).change (hm.current k)
  · intro source r hr
    rw [hstanding] at hr
    rw [hfeed]
    exact hm.stands _ source r hr (hh.stands source r hr)
  · intro nonce hnonce hfull
    rw [hfeed]
    refine hm.covers _ (hh.covers nonce ?_ hfull)
    rwa [Configured, hwritten] at hnonce
  · cases data with
    | none => exact hh.fits
    | some d =>
      intro x hx
      rcases List.mem_append.mp hx with hx | hx
      · exact hh.fits x hx
      · rw [List.mem_singleton.mp hx]
        exact hfits d rfl

end Multiplextashtic.Client

namespace Multiplextashtic.Server
open Multiplextashtic.Protocol Multiplextashtic.Messages Multiplextashtic.Config
open Multiplextashtic.Cache Multiplextashtic.ConfigReplay Multiplextashtic.Client
open Replica Run Table

variable {E : Type} {pb : Protobuf E} {s s' : TCPServer E} {e : Event} {cid : Nat}
  {h : ClientHandler E}

/-! ## The clients of a server -/

theorem getElem?_broadcast (hreg : Registered s) (hin : cid ∈ s.registry)
    (hh : s.handlers[cid]? = some h) (data : Bytes) :
    (broadcastFromRadio s data).handlers[cid]? = some (put h data) := by
  rw [broadcastFromRadio, handlers_broadcast hreg.nodup, if_pos hin, hh]
  rfl

theorem forwarded_client {c : Nat} {ce : ClientEvent} {h h' : ClientHandler E}
    {f : Option (Forward E)} (hh : s.handlers[c]? = some h)
    (hc : clientStep pb (world s) h ce = some (h', f)) :
    forwarded pb s (.client c ce) = f.map (c, ·) := by
  cases f <;> simp [forwarded, hh, hc]

/-- **A registered client after a step**: it may have gone on itself, and what the step
broadcasts is put on its queue. -/
theorem step_handler (hreg : Registered s) (hs : step pb s e = some s')
    (hh : s.handlers[cid]? = some h) (hin : cid ∈ s.registry) :
    ∃ h', s'.handlers[cid]? = some ((broadcast pb s e).elim h' (put h')) ∧
      (h' = h ∨ ∃ ce f, e = .client cid ce ∧ clientStep pb (world s) h ce = some (h', f)) := by
  by_cases he : e = .processIncoming
  · subst he
    obtain ⟨payload, rest, hq, rfl⟩ := step_processIncoming hs
    have hb : broadcast pb s .processIncoming = handed pb s .processIncoming := by
      simp [broadcast, forwarded]
    refine ⟨h, ?_, .inl rfl⟩
    rw [hb]
    cases handed pb s .processIncoming with
    | none => exact hh
    | some data =>
      have hregt : Registered (taken pb s payload rest) := ⟨hreg.nodup, hreg.connected⟩
      exact getElem?_broadcast hregt hin hh data
  · have hb : broadcast pb s e =
        (forwarded pb s e).map fun f => echoBytes pb s.phys.myNodeNum f.2.packet := by
      have hhanded : handed pb s e = none := by
        cases e with
        | processIncoming => exact absurd rfl he
        | _ => rfl
      rw [broadcast, hhanded, Option.none_or]
    rw [hb]
    cases step_stepped hs with
    | @client c ce h0 h1 f h0h hc =>
      have hregt : Registered (setHandler s c h1) :=
        ⟨hreg.nodup, fun cid hm => (List.length_set ..).symm ▸ hreg.connected cid hm⟩
      rw [forwarded_client h0h hc]
      have hset : ∃ h', (setHandler s c h1).handlers[cid]? = some h' ∧ (h' = h ∨
          ∃ ce' f, Event.client c ce = .client cid ce' ∧
            clientStep pb (world s) h ce' = some (h', f)) := by
        obtain ⟨hlt, -⟩ := List.getElem?_eq_some_iff.mp h0h
        by_cases hcid : c = cid
        · subst hcid
          rw [hh] at h0h
          cases h0h
          exact ⟨h1, List.getElem?_set_self hlt, .inr ⟨ce, f, rfl, hc⟩⟩
        · exact ⟨h, (List.getElem?_set_ne hcid).trans hh, .inl rfl⟩
      obtain ⟨h', hh', hown⟩ := hset
      refine ⟨h', ?_, hown⟩
      cases f with
      | none => exact hh'
      | some g => exact getElem?_broadcast hregt hin hh' _
    | connect peerIp =>
      obtain ⟨hlt, -⟩ := List.getElem?_eq_some_iff.mp hh
      exact ⟨h, (List.getElem?_append_left hlt).trans hh, .inl rfl⟩
    | dropped | broadcast => exact absurd rfl he
    | remove | radio | cacheMyInfo | recapture | startTask | sent | wake =>
      exact ⟨h, hh, .inl rfl⟩

/-! ## The cache of a client -/

/-- The cache of a client that does with what it is sent what `_update_cache` does. -/
def clientCache (pb : Protobuf E) (ws : List Bytes) : StateCache := ws.foldl (updateCache pb) {}

theorem clientCache_eq (pb : Protobuf E) (ws : List Bytes) :
    clientCache pb ws = cacheAfter pb (ws.map .payload) := by
  rw [clientCache, cacheAfter, List.foldl_map]
  rfl

/-! ## A view over runs -/

variable {α K : Type} [DecidableEq K] {v : View E α K}

/-- The rows in what a step hands on from the physical node. -/
def handedRows (v : View E α K) (pb : Protobuf E) (s : TCPServer E) (e : Event) : List α :=
  v.told pb (handed pb s e).toList

omit [DecidableEq K] in
/-- The row in a payload that is handed on. -/
theorem handedRows_payload (v : View E α K) {payload : Bytes} {rest : List Bytes}
    (hq : s.phys.readQueue = payload :: rest) : handedRows v pb s .processIncoming =
      ((messageOf pb (.payload payload)).bind v.tells).toList := by
  have hhanded : handed pb s .processIncoming = handedOn pb payload := by
    simp [handed, processed, hq]
  rw [handedRows, hhanded, handedOn_eq, messageOf]
  cases hfr : pb.parseFromRadio payload with
  | none => rfl
  | some fr => exact v.told_singleton hfr

/-- **What replays look up** is changed by a payload that is processed, or is none of what
payloads tell. -/
theorem world_step (hs : step pb s e = some s') (hclient : ∀ c ce, e ≠ .client c ce) :
    (∃ payload rest, e = .processIncoming ∧ s.phys.readQueue = payload :: rest ∧
      (world s').env = ⟨s.config, updateCache pb s.cache payload, s.capture⟩) ∨
    (handed pb s e = none ∧ s'.cache.channels = s.cache.channels ∧
      s'.cache.knownNodes = s.cache.knownNodes) := by
  by_cases he : e = .processIncoming
  · subst he
    obtain ⟨payload, rest, hq, rfl⟩ := step_processIncoming hs
    refine .inl ⟨payload, rest, rfl, hq, ?_⟩
    cases handed pb s .processIncoming <;> rfl
  · refine .inr ?_
    have hhanded : handed pb s e = none := by
      cases e with
      | processIncoming => exact absurd rfl he
      | _ => rfl
    refine ⟨hhanded, ?_⟩
    cases step_stepped hs with
    | client => exact absurd rfl (hclient _ _)
    | dropped | broadcast => exact absurd rfl he
    | _ => exact ⟨rfl, rfl⟩

theorem captured_step (hc : Captured pb s.capture) (hs : step pb s e = some s') :
    Captured pb s'.capture := by
  cases step_stepped hs with
  | @client _ _ h0 h1 f => cases f <;> exact hc
  | recapture syntheticNodes => exact .defaults ..
  | _ => exact hc

/-- What steps that meet a condition do to a view of the client `cid`. -/
structure Followed (v : View E α K) (pb : Protobuf E) (cid : Nat)
    (Calm : TCPServer E → Event → Prop) : Prop where
  echo : ∀ {s e c f}, Calm s e → forwarded pb s e = some (c, f) →
    v.tells (.packet (echoPacket s.phys.myNodeNum f.packet)) = none
  moves : ∀ {s s' e h}, Calm s e → (∀ c ce, e ≠ .client c ce) → step pb s e = some s' →
    s.handlers[cid]? = some h → v.Fit (world s) →
    Moves v h (world s) (world s') (handedRows v pb s e)

theorem world_client {c : Nat} {ce : ClientEvent} (hs : step pb s (.client c ce) = some s') :
    world s' = world s := by
  cases step_stepped hs with
  | @client _ _ h0 h1 f => cases f <;> rfl

/-- What is read from the physical node fits in a frame. -/
def ReadFits (s : TCPServer E) : Prop := ∀ p ∈ s.phys.readQueue, p.length ≤ maxPacketSize

/-- **A registered client stays a replica.** -/
theorem step_viewed {Calm : TCPServer E → Event → Prop} (hrt : pb.FromRadioRoundTrip)
    (hv : v.Lawful pb) (hf : Followed v pb cid Calm) (hreg : Registered s) (hread : ReadFits s)
    (hcalm : Calm s e) (hs : step pb s e = some s') (hin : cid ∈ s.registry)
    (hh : s.handlers[cid]? = some h) (hfit : v.Fit (world s)) (hview : Viewed pb v (world s) h) :
    v.Fit (world s') ∧ ∃ h', s'.handlers[cid]? = some h' ∧ Viewed pb v (world s') h' := by
  obtain ⟨h', hget, hown⟩ := step_handler hreg hs hh hin
  by_cases hc : ∃ c ce, e = .client c ce
  · obtain ⟨c, ce, rfl⟩ := hc
    rw [world_client hs]
    have hview' : Viewed pb v (world s) h' := by
      rcases hown with rfl | ⟨ce', f, -, hstep⟩
      · exact hview
      · exact hview.step hrt hv hfit hstep
    have hquiet : ∀ d ∈ broadcast pb s (.client c ce), v.told pb [d] = [] := by
      intro d hd
      obtain ⟨⟨c', f⟩, hforwarded, rfl⟩ := Option.map_eq_some_iff.mp hd
      rw [echoBytes, v.told_singleton (hrt _), hf.echo hcalm hforwarded]
      rfl
    refine ⟨hfit, _, hget, hview'.moved (.refl hfit) ?_ ?_⟩
    · cases hb : broadcast pb s (.client c ce) with
      | none => rfl
      | some d => exact hquiet d hb
    · intro d hd htold
      exact absurd (hquiet d hd) htold
  · have hclient : ∀ c ce, e ≠ .client c ce := fun c ce he => hc ⟨c, ce, he⟩
    obtain rfl : h' = h := by
      rcases hown with rfl | ⟨ce, f, he, -⟩
      · rfl
      · exact absurd he (hclient cid ce)
    have hb : broadcast pb s e = handed pb s e := by
      cases e with
      | client c ce => exact absurd rfl (hclient c ce)
      | _ => exact Option.or_none
    have hm := hf.moves hcalm hclient hs hh hfit
    rw [hb] at hget
    refine ⟨hm.fit, _, hget, hview.moved hm rfl ?_⟩
    intro d hd _
    obtain ⟨payload, hp, hd⟩ := Option.bind_eq_some_iff.mp hd
    rw [handedOn_eq] at hd
    split at hd
    · cases hd
      cases e with
      | processIncoming => exact hread _ (List.mem_of_head? hp)
      | _ => cases hp
    · cases hd

/-! ## From its connection on -/

theorem ReadFits.step (h : ReadFits s) (hs : Server.step pb s e = some s') : ReadFits s' := by
  cases step_stepped hs with
  | @client _ _ h0 h1 f => cases f <;> exact h
  | @radio payload hlen =>
    have hphys : (maybeCaptureMyInfo pb s.phys payload).readQueue = s.phys.readQueue := by
      unfold maybeCaptureMyInfo
      split
      · rfl
      · split <;> rfl
    intro p hp
    change p ∈ (maybeCaptureMyInfo pb s.phys payload).readQueue ++ [payload] at hp
    rw [hphys] at hp
    rcases List.mem_append.mp hp with hp | hp
    · exact h p hp
    · rw [List.mem_singleton.mp hp]
      exact hlen
  | dropped hq | broadcast hq =>
    exact fun p hp => h p (hq ▸ List.mem_cons_of_mem _ hp)
  | _ => exact h

theorem run_readFits {config : AppConfig} {es : List Event}
    (hr : run (step pb) (init config) es = some s) : ReadFits s := by
  have hinit : ReadFits (init config : TCPServer E) := List.forall_mem_nil _
  exact invariant (fun s e t h hs => h.step hs) hinit hr

/-- **A client that stays is a replica** of each view that the run leaves in order. -/
theorem run_viewed {Calm : TCPServer E → Event → Prop} (hrt : pb.FromRadioRoundTrip)
    (hv : v.Lawful pb) (hf : Followed v pb s.handlers.length Calm) (hreg : Registered s)
    (hread : ReadFits s) (hfit : v.Fit (world s)) {peerIp : String} {es : List Event}
    (hr : run (step pb) s (.connect peerIp :: es) = some s')
    (hcalm : Along (step pb) Calm (connect s peerIp) es) (hstay : s.handlers.length ∈ s'.registry) :
    v.Fit (world s') ∧
      ∃ h, s'.handlers[s.handlers.length]? = some h ∧ Viewed pb v (world s') h := by
  have hconnect : step pb s (.connect peerIp) = some (connect s peerIp) := rfl
  obtain ⟨t, ht, hr⟩ := run_cons.mp hr
  cases ht
  generalize hcid : s.handlers.length = cid at *
  have hlen : cid < (connect s peerIp).handlers.length := by simp [connect, hcid]
  have hfirst : (connect s peerIp).handlers[cid]? = some { peerIp } := by simp [connect, ← hcid]
  have hinit : (Registered (connect s peerIp) ∧ ReadFits (connect s peerIp) ∧
      cid < (connect s peerIp).handlers.length) ∧ (cid ∈ (connect s peerIp).registry →
        v.Fit (world (connect s peerIp)) ∧ ∃ h, (connect s peerIp).handlers[cid]? = some h ∧
          Viewed pb v (world (connect s peerIp)) h) :=
    ⟨⟨hreg.step hconnect, hread, hlen⟩,
      fun _ => ⟨hfit, _, hfirst, .new _ peerIp⟩⟩
  have hall := invariant_along (C := Calm)
    (P := fun s : TCPServer E => (Registered s ∧ ReadFits s ∧ cid < s.handlers.length) ∧
      (cid ∈ s.registry → v.Fit (world s) ∧
        ∃ h, s.handlers[cid]? = some h ∧ Viewed pb v (world s) h)) ?_ hinit hcalm hr
  · exact hall.2 hstay
  · intro s e s' hold hcalm hs
    obtain ⟨⟨hreg, hread, hlen⟩, hview⟩ := hold
    have hlen' : cid < s'.handlers.length := by
      rw [handlers_length_step hs]
      exact Nat.lt_add_right _ hlen
    refine ⟨⟨hreg.step hs, hread.step hs, hlen'⟩, ?_⟩
    intro hin
    have hin : cid ∈ s.registry := by
      rcases (registry_step hs cid).mp hin with ⟨hin, -⟩ | ⟨-, hnew⟩
      · exact hin
      · exact absurd hnew (Nat.ne_of_lt hlen)
    obtain ⟨hfit, h, hh, hview⟩ := hview hin
    exact step_viewed hrt hv hf hreg hread hcalm hs hin hh hfit hview

end Multiplextashtic.Server

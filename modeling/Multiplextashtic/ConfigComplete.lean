import Multiplextashtic.Echo

/-! # Who announces a ConfigComplete

A client is told that its configuration is complete by the replays it asked for,
by every refresh, and by whatever the physical node says in its own stream. Each
of a handler's tasks is followed separately: what it has announced, and what it
still owes. -/
namespace Multiplextashtic.Client
open Multiplextashtic.Protocol Multiplextashtic.Messages Multiplextashtic.Config
open Multiplextashtic.Router Multiplextashtic.Capture Multiplextashtic.ConfigReplay

variable {E : Type} {pb : Protobuf E} {radioed : List Bytes} {w : World} {h h' : ClientHandler E}

/-- The nonce a payload announces, if it is a ConfigComplete. -/
def announcement (pb : Protobuf E) (data : Bytes) : Option UInt32 :=
  (pb.parseFromRadio data).bind FromRadio.configComplete?

/-- The nonces of the ConfigCompletes from one source, in the order written. -/
def announced (pb : Protobuf E) (written : List (Source × Bytes)) (source : Source) : List UInt32 :=
  (written.filter fun e => e.1 = source).filterMap fun e => announcement pb e.2

/-- What a replay for a nonce has announced. -/
def announcedBy (r : Replay) : List UInt32 := if r.phase = .configComplete then [r.configId] else []

/-- What it still owes. -/
def owedBy (r : Replay) : List UInt32 := if r.phase = .configComplete then [] else [r.configId]

/-- The entries a replay has left to send announce nothing. -/
def PlainRest (pb : Protobuf E) (r : Replay) : Prop := ∀ e ∈ r.phase.pending, Plain pb e

/-- The nonces the read task owes the client; a task that ended may owe one for good. -/
def ReadOwes (pb : Protobuf E) : ReadTask E → List UInt32 → Prop
  | .replaying r, owed => PlainRest pb r ∧ owed = owedBy r
  | .failed _, owed => owed.length ≤ 1
  | .cancelled, owed => owed.length ≤ 1
  | _, owed => owed = []

/-- What a refresh has announced. -/
def RefreshDid (pb : Protobuf E) : Option RefreshTask → List UInt32 → Prop
  | none, did => did = []
  | some (.replaying r), did => PlainRest pb r ∧ r.configId = 0 ∧ did = announcedBy r
  | some .finished, did => did = [0]
  | some (.failed _), did => did = [] ∨ did = [0]

/-- Announces nothing, unless the physical node sent it. -/
def Relayed (pb : Protobuf E) (radioed : List Bytes) (data : Bytes) : Prop :=
  announcement pb data = none ∨ data ∈ radioed

/-- What the read task owes is what was requested beyond what it announced. -/
structure Requests (pb : Protobuf E) (h : ClientHandler E) : Prop where
  owes : ∃ owed, h.requested = announced pb h.written .request ++ owed ∧ ReadOwes pb h.read owed
  nonzero : 0 ∉ h.requested

/-- The other tasks of a handler. -/
structure Others (pb : Protobuf E) (radioed : List Bytes) (h : ClientHandler E) : Prop where
  refreshes : ∀ i, RefreshDid pb h.refreshes[i]? (announced pb h.written (.refresh i))
  status : announced pb h.written .queueStatus = []
  response : announced pb h.written .response = []
  queued : ∀ data ∈ h.queue, Relayed pb radioed data
  relayed : ∀ data, (.queue, data) ∈ h.written → Relayed pb radioed data

/-! ## The record of writes -/

theorem announced_concat_same (written : List (Source × Bytes)) (source : Source) (data : Bytes) :
    announced pb (written ++ [(source, data)]) source =
      announced pb written source ++ (announcement pb data).toList := by
  cases ha : announcement pb data <;> simp [announced, ha]

theorem announced_concat_other {source source' : Source} (hne : source ≠ source')
    (written : List (Source × Bytes)) (data : Bytes) :
    announced pb (written ++ [(source, data)]) source' = announced pb written source' := by
  simp [announced, hne]

theorem announcement_of_wrote {configId : UInt32} {r : Replay} {data : Bytes}
    (hw : Wrote pb configId r data) : (announcement pb data).toList = announcedBy r := by
  obtain ⟨fr, hfr, hc⟩ := hw.message
  unfold announcement announcedBy
  rw [hfr, Option.bind_some, hc, hw.sameId]
  split <;> rfl

/-- The refreshes stand where they stood, and only the read task and the write task
have announced anything. -/
theorem Others.of_announced (ho : Others pb radioed h) (hr : h'.refreshes = h.refreshes)
    (ha : ∀ source, source ≠ .request → source ≠ .queue →
      announced pb h'.written source = announced pb h.written source)
    (hq : ∀ data ∈ h'.queue, Relayed pb radioed data)
    (hw : ∀ data, (.queue, data) ∈ h'.written → Relayed pb radioed data) :
    Others pb radioed h' := by
  refine ⟨?_, ?_, ?_, hq, hw⟩
  · intro i
    rw [hr, ha (.refresh i) nofun nofun]
    exact ho.refreshes i
  · rw [ha .queueStatus nofun nofun]; exact ho.status
  · rw [ha .response nofun nofun]; exact ho.response

/-- The queue, the refreshes and the record of writes are as they were. -/
theorem Others.same (ho : Others pb radioed h) (hq : h'.queue = h.queue)
    (hr : h'.refreshes = h.refreshes) (hw : h'.written = h.written) : Others pb radioed h' := by
  refine ho.of_announced hr ?_ ?_ ?_
  · intro source _ _
    rw [hw]
  · rw [hq]; exact ho.queued
  · rw [hw]; exact ho.relayed

/-- A write of the read task: for a replay that was asked for, or an answer. -/
theorem Others.log (ho : Others pb radioed h) {source : Source} {data : Bytes}
    (hq : source ≠ .queue) (ha : source = .request ∨ announcement pb data = none) :
    Others pb radioed (log h source data) := by
  refine ho.of_announced rfl ?_ ho.queued ?_
  · intro source' hne _
    show announced pb (h.written ++ [(source, data)]) source' = announced pb h.written source'
    by_cases he : source = source'
    · subst he
      rw [announced_concat_same, ha.resolve_left hne]
      exact List.append_nil _
    · exact announced_concat_other he h.written data
  · intro d hd
    rcases List.mem_append.mp hd with hd | hd
    · exact ho.relayed d hd
    · cases List.mem_singleton.mp hd
      exact absurd rfl hq

/-! ## The read task -/

theorem readTurn_others {turn : Turn} {configId : UInt32} (ho : Others pb radioed h)
    (hs : Sound pb configId turn) : Others pb radioed (readTurn h turn) := by
  cases turn with
  | wrote data r =>
    obtain ⟨hrefreshes, hstatus, hresponse, hqueued, hrelayed⟩ :=
      show Others pb radioed (log h .request data) from ho.log nofun (.inl rfl)
    exact ⟨hrefreshes, hstatus, hresponse, hqueued, hrelayed⟩
  | returned sent => exact hs.elim
  | raised e => exact ⟨ho.refreshes, ho.status, ho.response, ho.queued, ho.relayed⟩

theorem readTurn_requests {turn : Turn} {configId : UInt32}
    (hreq : h.requested = announced pb h.written .request ++ [configId]) (hz : 0 ∉ h.requested)
    (hs : Sound pb configId turn) : Requests pb (readTurn h turn) := by
  cases turn with
  | wrote data r =>
    have hw : Wrote pb configId r data := hs
    refine ⟨⟨owedBy r, ?_, hw.plain, rfl⟩, hz⟩
    show h.requested = announced pb (h.written ++ [(.request, data)]) .request ++ owedBy r
    rw [announced_concat_same, announcement_of_wrote hw, hreq, List.append_assoc]
    unfold announcedBy owedBy
    rw [hw.sameId]
    split <;> rfl
  | returned sent => exact hs.elim
  | raised e => exact ⟨⟨[configId], hreq, Nat.le_refl 1⟩, hz⟩

/-- The read task goes to a point at which it owes no more than before. -/
theorem Requests.same (hr : Requests pb h) (hq : h'.requested = h.requested)
    (hw : announced pb h'.written .request = announced pb h.written .request)
    (howes : ∀ owed, ReadOwes pb h.read owed → ReadOwes pb h'.read owed) : Requests pb h' := by
  obtain ⟨owed, heq, ho⟩ := hr.owes
  exact ⟨⟨owed, by rw [hq, hw, heq], howes owed ho⟩, hq ▸ hr.nonzero⟩

/-- A step that leaves the read task alone. -/
theorem Requests.keep (hr : Requests pb h) (hread : h'.read = h.read)
    (hq : h'.requested = h.requested)
    (hw : announced pb h'.written .request = announced pb h.written .request) :
    Requests pb h' := by
  refine hr.same hq hw ?_
  intro owed ho
  rw [hread]
  exact ho

/-- The environment's capture announces nothing. -/
def PlainCapture (pb : Protobuf E) (w : World) : Prop := ∀ e ∈ w.env.capture.captured, Plain pb e

theorem replayTurn_sound (hrt : pb.FromRadioRoundTrip) (hc : PlainCapture pb w) {r : Replay}
    (hr : PlainRest pb r) (hp : r.phase ≠ .configComplete) (lost : Bool) :
    Sound pb r.configId (replayTurn pb w r lost) := by
  unfold replayTurn
  split
  · exact drainRaised_sound hrt hc hr .connectionReset
  · exact drained_sound hrt hc hr hp

/-- Behind the ConfigComplete a replay returns, or raises when the connection is lost. -/
theorem replayTurn_configComplete {r : Replay} (hp : r.phase = .configComplete) (lost : Bool) :
    replayTurn pb w r lost = if lost then .raised .connectionReset else .returned (r.sent + 1) := by
  unfold replayTurn
  split
  · simp [drainRaised, hp]
  · exact drained_configComplete hp

/-- Both halves of what a handler keeps. -/
structure Announces (pb : Protobuf E) (radioed : List Bytes) (h : ClientHandler E) : Prop where
  requests : Requests pb h
  others : Others pb radioed h

theorem announcement_fromRadio (hrt : pb.FromRadioRoundTrip) (fr : FromRadio E) :
    announcement pb (pb.serializeFromRadio fr) = fr.configComplete? := by
  rw [announcement, hrt, Option.bind_some]

theorem sendQueueStatus_announces (hrt : pb.FromRadioRoundTrip) (ha : Announces pb radioed h)
    (hread : h.read = .reading) : Announces pb radioed (sendQueueStatus h pb) := by
  unfold sendQueueStatus
  simp only
  split
  · exact ha
  · refine ⟨ha.requests.same rfl ?_ ?_, ?_⟩
    · exact announced_concat_other (show Source.queueStatus ≠ .request from nofun) h.written _
    · intro owed ho
      rw [hread] at ho
      exact ho
    · have hlog : Others pb radioed (log h .queueStatus _) :=
        ha.others.log nofun (.inr (announcement_fromRadio hrt ⟨0, .queueStatus queueStatus⟩))
      exact hlog.same rfl rfl rfl

theorem respond_announces (ha : Announces pb radioed h) (hread : h.read = .reading)
    (packet : MeshPacket E) {routed : Routed}
    (hres : ∀ response, routed.clientResponse = some response → announcement pb response = none) :
    Announces pb radioed (respond h packet routed).1 := by
  have howes (read : ReadTask E) (hr : ∀ owed, owed = [] → ReadOwes pb read owed) (owed : List UInt32)
      (ho : ReadOwes pb h.read owed) : ReadOwes pb read owed := by
    rw [hread] at ho
    exact hr owed ho
  unfold respond
  split
  · next response hresp =>
    split
    · split
      · refine ⟨ha.requests.same rfl rfl (howes _ fun owed h0 => ?_), ha.others.same rfl rfl rfl⟩
        rw [h0]; exact Nat.zero_le 1
      · refine ⟨ha.requests.same rfl ?_ (howes _ fun owed h0 => h0), ?_⟩
        · exact announced_concat_other (show Source.response ≠ .request from nofun) h.written response
        · have hlog : Others pb radioed (log h .response response) :=
            ha.others.log nofun (.inr (hres response hresp))
          exact hlog.same rfl rfl rfl
    · exact ha
  · exact ha

theorem handleToRadio_announces (hrt : pb.FromRadioRoundTrip) (hc : PlainCapture pb w)
    (ha : Announces pb radioed h) (hread : h.read = .reading) (payload : Bytes) (now : Time) :
    Announces pb radioed (handleToRadio h pb w payload now).1 := by
  unfold handleToRadio
  split
  · exact ha
  · next toRadio _ =>
    split
    · next hn =>
      split
      · exact ha
      · obtain ⟨owed, heq, ho⟩ := ha.requests.owes
        rw [hread] at ho
        have h0 : owed = [] := ho
        have hs : Sound pb toRadio.nonce (proceed pb w.env (Replay.new w.myNodeNum toRadio.nonce)) :=
          proceed_sound (r := Replay.new w.myNodeNum toRadio.nonce) hrt hc
            (fun e hm => by cases hm) Phase.noConfusion
        refine ⟨readTurn_requests ?_ ?_ hs, readTurn_others (ha.others.same rfl rfl rfl) hs⟩
        · show h.requested ++ [toRadio.nonce] = announced pb h.written .request ++ [toRadio.nonce]
          rw [heq, h0, List.append_nil]
        · intro hm
          rcases List.mem_append.mp hm with hm | hm
          · exact ha.requests.nonzero hm
          · exact hn (List.mem_singleton.mp hm).symm
    · split
      · exact sendQueueStatus_announces hrt ha hread
      · split
        · exact ha
        · split
          · exact ha
          · split
            · refine respond_announces ha hread _ ?_
              intro response hresp
              obtain ⟨id, ack, hack⟩ := routeFromClient_response hrt hresp
              rw [announcement, hack]
              rfl
            · exact ha

theorem resumeRead_announces (hrt : pb.FromRadioRoundTrip) (hc : PlainCapture pb w)
    (ha : Announces pb radioed h) {lost : Bool} {f : Option (Forward E)}
    (hs : resumeRead h pb w lost = some (h', f)) : Announces pb radioed h' := by
  obtain ⟨owed, heq, ho⟩ := ha.requests.owes
  unfold resumeRead at hs
  split at hs
  · next r hread =>
    cases hs
    rw [hread] at ho
    obtain ⟨hplain, howed⟩ := ho
    by_cases hp : r.phase = .configComplete
    · rw [replayTurn_configComplete hp]
      unfold owedBy at howed
      rw [if_pos hp] at howed
      cases lost
      · exact ⟨⟨⟨owed, heq, howed⟩, ha.requests.nonzero⟩, ha.others.same rfl rfl rfl⟩
      · refine ⟨⟨⟨owed, heq, ?_⟩, ha.requests.nonzero⟩, ha.others.same rfl rfl rfl⟩
        rw [howed]; exact Nat.zero_le 1
    · have hsound := replayTurn_sound hrt hc hplain hp lost
      unfold owedBy at howed
      rw [if_neg hp] at howed
      rw [howed] at heq
      exact ⟨readTurn_requests heq ha.requests.nonzero hsound, readTurn_others ha.others hsound⟩
  · next hread =>
    cases hs
    rw [hread] at ho
    exact ⟨⟨⟨owed, heq, ho⟩, ha.requests.nonzero⟩, ha.others.same rfl rfl rfl⟩
  · next forward hread =>
    rw [hread] at ho
    have h0 : owed = [] := ho
    split at hs <;> cases hs
    · refine ⟨⟨⟨owed, heq, ?_⟩, ha.requests.nonzero⟩, ha.others.same rfl rfl rfl⟩
      rw [h0]; exact Nat.zero_le 1
    · exact ⟨⟨⟨owed, heq, h0⟩, ha.requests.nonzero⟩, ha.others.same rfl rfl rfl⟩
  · cases hs

theorem ReadOwes.length_le {read : ReadTask E} {owed : List UInt32} (ho : ReadOwes pb read owed) :
    owed.length ≤ 1 := by
  cases read with
  | replaying r =>
    obtain ⟨-, rfl⟩ := ho
    unfold owedBy
    split <;> simp
  | failed e => exact ho
  | cancelled => exact ho
  | reading | sendingStatus | responding forward | finished =>
    have h0 : owed = [] := ho
    simp [h0]

theorem hangUp_announces (ha : Announces pb radioed h) {lost : Bool}
    (hs : hangUp h lost = some h') : Announces pb radioed h' := by
  unfold hangUp at hs
  split at hs <;> cases hs
  next hread =>
  refine ⟨ha.requests.same rfl rfl ?_, ha.others.same rfl rfl rfl⟩
  intro owed ho
  have hone := ho.length_le
  rw [hread] at ho
  cases lost
  · exact ho
  · exact hone

theorem tearDown_announces (ha : Announces pb radioed h) (hs : tearDown h = some h') :
    Announces pb radioed h' := by
  unfold tearDown at hs
  split at hs <;> cases hs
  refine ⟨ha.requests.same rfl rfl ?_, ha.others.same rfl rfl rfl⟩
  intro owed ho
  show ReadOwes pb (if h.read.done then h.read else .cancelled) owed
  split
  · exact ho
  · exact ho.length_le

/-! ## The write task -/

theorem writeNext_announces (ha : Announces pb radioed h) (hs : writeNext h = some h') :
    Announces pb radioed h' := by
  unfold writeNext at hs
  split at hs
  · next data rest _ hq =>
    have hqueued : ∀ d ∈ data :: rest, Relayed pb radioed d := hq ▸ ha.others.queued
    obtain ⟨hdata, hrest⟩ := List.forall_mem_cons.mp hqueued
    split at hs <;> cases hs
    · refine ⟨ha.requests.keep rfl rfl rfl, ha.others.of_announced rfl ?_ hrest ha.others.relayed⟩
      intro source _ _
      rfl
    · have hsame (source : Source) (hne : .queue ≠ source) :
          announced pb (h.written ++ [(.queue, data)]) source = announced pb h.written source :=
        announced_concat_other hne h.written data
      refine ⟨ha.requests.keep rfl rfl (hsame .request nofun),
        ha.others.of_announced rfl ?_ hrest ?_⟩
      · intro source _ hne
        exact hsame source hne.symm
      · intro d hd
        rcases List.mem_append.mp hd with hd | hd
        · exact ha.others.relayed d hd
        · cases List.mem_singleton.mp hd
          exact hdata
  · cases hs

theorem resumeWrite_announces (ha : Announces pb radioed h) {lost : Bool}
    (hs : resumeWrite h lost = some h') : Announces pb radioed h' := by
  unfold resumeWrite at hs
  split at hs <;> cases hs
  exact ⟨ha.requests.keep rfl rfl rfl, ha.others.same rfl rfl rfl⟩

/-! ## Refreshes -/

/-- A step of the `i`-th refresh, the only one to write under its source. -/
theorem Others.refreshed (ho : Others pb radioed h) {i : Nat} {t : RefreshTask}
    (hr : ∀ j, h'.refreshes[j]? = if j = i then some t else h.refreshes[j]?)
    (hq : h'.queue = h.queue)
    (hw : h'.written = h.written ∨ ∃ data, h'.written = h.written ++ [(.refresh i, data)])
    (hdid : RefreshDid pb (some t) (announced pb h'.written (.refresh i))) :
    Others pb radioed h' := by
  have hsame (source : Source) (hne : .refresh i ≠ source) :
      announced pb h'.written source = announced pb h.written source := by
    rcases hw with hw | ⟨data, hw⟩ <;> rw [hw]
    exact announced_concat_other hne h.written data
  refine ⟨?_, ?_, ?_, ?_, ?_⟩
  · intro j
    rw [hr j]
    split
    · next he => rw [he]; exact hdid
    · next hne =>
      have hij : Source.refresh i ≠ .refresh j := by
        intro he
        exact hne (Source.refresh.inj he).symm
      rw [hsame (.refresh j) hij]
      exact ho.refreshes j
  · exact (hsame .queueStatus nofun).trans ho.status
  · exact (hsame .response nofun).trans ho.response
  · rw [hq]; exact ho.queued
  · intro d hd
    rcases hw with hw | ⟨data, hw⟩ <;> rw [hw] at hd
    · exact ho.relayed d hd
    · rcases List.mem_append.mp hd with hd | hd
      · exact ho.relayed d hd
      · cases List.mem_singleton.mp hd

theorem getElem?_set_of_lt {α : Type} {l : List α} {i : Nat} (hi : i < l.length) (a : α) (j : Nat) :
    (l.set i a)[j]? = if j = i then some a else l[j]? := by
  rw [List.getElem?_set]
  grind

theorem refreshTurn_announces (ha : Announces pb radioed h) {i : Nat} (hi : i < h.refreshes.length)
    (hdid : announced pb h.written (.refresh i) = []) {turn : Turn} (hs : Sound pb 0 turn) :
    Announces pb radioed (refreshTurn h i turn) := by
  cases turn with
  | wrote data r =>
    have hw : Wrote pb 0 r data := hs
    refine ⟨ha.requests.keep rfl rfl ?_, ?_⟩
    · exact announced_concat_other (show Source.refresh i ≠ .request from nofun) h.written data
    · refine ha.others.refreshed (getElem?_set_of_lt hi _) rfl (.inr ⟨data, rfl⟩) ?_
      refine ⟨hw.plain, hw.sameId, ?_⟩
      show announced pb (h.written ++ [(.refresh i, data)]) (.refresh i) = announcedBy r
      rw [announced_concat_same, hdid, List.nil_append, announcement_of_wrote hw]
  | returned sent => exact hs.elim
  | raised e =>
    exact ⟨ha.requests.keep rfl rfl rfl,
      ha.others.refreshed (getElem?_set_of_lt hi _) rfl (.inl rfl) (.inl hdid)⟩

theorem refreshConfig_announces (hrt : pb.FromRadioRoundTrip) (hc : PlainCapture pb w)
    (ha : Announces pb radioed h) : Announces pb radioed (refreshConfig h pb w) := by
  have hnone : h.refreshes[h.refreshes.length]? = none := List.getElem?_eq_none (Nat.le_refl _)
  have hdid : announced pb h.written (.refresh h.refreshes.length) = [] := by
    have hd := ha.others.refreshes h.refreshes.length
    rw [hnone] at hd
    exact hd
  have hnil : ∀ e ∈ (Replay.new w.myNodeNum 0).phase.pending, Plain pb e := fun e hm => by cases hm
  have hstart : RefreshDid pb (some (.replaying (Replay.new w.myNodeNum 0)))
      (announced pb h.written (.refresh h.refreshes.length)) := ⟨hnil, rfl, hdid⟩
  unfold refreshConfig
  simp only [List.length_append, List.length_singleton, Nat.add_sub_cancel]
  refine refreshTurn_announces ?_ ?_ ?_ (proceed_sound hrt hc hnil Phase.noConfusion)
  · refine ⟨ha.requests.keep rfl rfl rfl, ?_⟩
    refine ha.others.refreshed ?_ rfl (.inl rfl) hstart
    intro j
    show (h.refreshes ++ [_])[j]? = _
    rw [List.getElem?_append]
    grind
  · rw [List.length_append]
    exact Nat.lt_succ_self _
  · exact hdid

theorem resumeRefresh_announces (hrt : pb.FromRadioRoundTrip) (hc : PlainCapture pb w)
    (ha : Announces pb radioed h) {i : Nat} {lost : Bool}
    (hs : resumeRefresh h pb w i lost = some h') : Announces pb radioed h' := by
  unfold resumeRefresh at hs
  split at hs <;> cases hs
  next r hr =>
  obtain ⟨hi, -⟩ := List.getElem?_eq_some_iff.mp hr
  have hd := ha.others.refreshes i
  rw [hr] at hd
  obtain ⟨hplain, hid, hdid⟩ := hd
  unfold announcedBy at hdid
  rw [hid] at hdid
  by_cases hp : r.phase = .configComplete
  · rw [if_pos hp] at hdid
    rw [replayTurn_configComplete hp]
    cases lost
    · exact ⟨ha.requests.keep rfl rfl rfl,
        ha.others.refreshed (getElem?_set_of_lt hi _) rfl (.inl rfl) hdid⟩
    · exact ⟨ha.requests.keep rfl rfl rfl,
        ha.others.refreshed (getElem?_set_of_lt hi _) rfl (.inl rfl) (.inr hdid)⟩
  · rw [if_neg hp] at hdid
    exact refreshTurn_announces ha hi hdid (hid ▸ replayTurn_sound hrt hc hplain hp lost)

/-- **Every step of a connection keeps what its tasks have announced and owe.** -/
theorem clientStep_announces (hrt : pb.FromRadioRoundTrip) (hc : PlainCapture pb w)
    (ha : Announces pb radioed h) {e : ClientEvent} {f : Option (Forward E)}
    (hs : clientStep pb w h e = some (h', f)) : Announces pb radioed h' := by
  cases clientStep_stepped hs with
  | payload hread hlen hp =>
    have he : _ = h' := congrArg Prod.fst hp
    exact he ▸ handleToRadio_announces hrt hc ha hread _ _
  | resumeRead hr => exact resumeRead_announces hrt hc ha hr
  | hangUp hg => exact hangUp_announces ha hg
  | writeNext hn => exact writeNext_announces ha hn
  | resumeWrite hw => exact resumeWrite_announces ha hw
  | refresh => exact refreshConfig_announces hrt hc ha
  | resumeRefresh hr => exact resumeRefresh_announces hrt hc ha hr
  | tearDown ht => exact tearDown_announces ha ht

/-- The physical node may have sent more. -/
theorem Announces.mono {radioed' : List Bytes} (ha : Announces pb radioed h)
    (hsub : ∀ data ∈ radioed, data ∈ radioed') : Announces pb radioed' h := by
  have hrelayed (data : Bytes) (hr : Relayed pb radioed data) : Relayed pb radioed' data :=
    hr.imp_right (hsub data)
  obtain ⟨hrequests, hrefreshes, hstatus, hresponse, hqueued, hwritten⟩ := ha
  exact ⟨hrequests, hrefreshes, hstatus, hresponse, fun d hd => hrelayed d (hqueued d hd),
    fun d hd => hrelayed d (hwritten d hd)⟩

theorem Announces.new (pb : Protobuf E) (radioed : List Bytes) (peerIp : String) :
    Announces pb radioed { peerIp } :=
  ⟨⟨⟨[], rfl, rfl⟩, List.not_mem_nil⟩, fun _ => rfl, rfl, rfl, List.forall_mem_nil _, nofun⟩

theorem Announces.put (ha : Announces pb radioed h) {data : Bytes} (hd : Relayed pb radioed data) :
    Announces pb radioed (put h data) := by
  obtain ⟨⟨howes, hnonzero⟩, hrefreshes, hstatus, hresponse, hqueued, hwritten⟩ := ha
  refine ⟨⟨howes, hnonzero⟩, hrefreshes, hstatus, hresponse, ?_, hwritten⟩
  intro d hm
  rcases List.mem_append.mp hm with hm | hm
  · exact hqueued d hm
  · rw [List.mem_singleton.mp hm]; exact hd

/-- The ConfigCompletes a client is sent: those it asked for, one for each refresh,
and what the physical node sent. -/
structure Answered (pb : Protobuf E) (radioed : List Bytes) (h : ClientHandler E) : Prop where
  requests : ∃ owed, h.requested = announced pb h.written .request ++ owed ∧ owed.length ≤ 1 ∧
    (owed ≠ [] → (∃ r, h.read = .replaying r) ∨ (∃ e, h.read = .failed e) ∨ h.read = .cancelled)
  nonzero : 0 ∉ h.requested
  refreshes : ∀ i, announced pb h.written (.refresh i) = [] ∨
    announced pb h.written (.refresh i) = [0]
  refreshed : ∀ i, h.refreshes[i]? = some .finished → announced pb h.written (.refresh i) = [0]
  replies : announced pb h.written .queueStatus = [] ∧ announced pb h.written .response = []
  relayed : ∀ data, (.queue, data) ∈ h.written → announcement pb data ≠ none → data ∈ radioed

theorem RefreshDid.zero {t : Option RefreshTask} {did : List UInt32} (hd : RefreshDid pb t did) :
    did = [] ∨ did = [0] := by
  match t with
  | none => exact .inl hd
  | some (.replaying r) =>
    obtain ⟨-, hid, rfl⟩ := hd
    unfold announcedBy
    rw [hid]
    split
    · exact .inr rfl
    · exact .inl rfl
  | some .finished => exact .inr hd
  | some (.failed e) => exact hd

theorem Announces.answered (ha : Announces pb radioed h) : Answered pb radioed h := by
  obtain ⟨⟨⟨owed, heq, ho⟩, hnonzero⟩, hrefreshes, hstatus, hresponse, -, hrelayed⟩ := ha
  refine ⟨⟨owed, heq, ho.length_le, ?_⟩, hnonzero, ?_, ?_, ⟨hstatus, hresponse⟩, ?_⟩
  · intro hne
    cases hr : h.read with
    | replaying r => exact .inl ⟨r, rfl⟩
    | failed e => exact .inr (.inl ⟨e, rfl⟩)
    | cancelled => exact .inr (.inr rfl)
    | reading | sendingStatus | responding forward | finished =>
      rw [hr] at ho
      exact absurd ho hne
  · intro i
    exact (hrefreshes i).zero
  · intro i hi
    have hd := hrefreshes i
    rw [hi] at hd
    exact hd
  · intro data hm hne
    exact (hrelayed data hm).resolve_left hne

end Multiplextashtic.Client

namespace Multiplextashtic.Server
open Multiplextashtic.Protocol Multiplextashtic.Messages Multiplextashtic.Capture
open Multiplextashtic.ConfigReplay Multiplextashtic.Client Run

variable {E : Type} {pb : Protobuf E} {s s' : TCPServer E}

/-! ## Runs -/

theorem radioed_step {e : Event} (hs : step pb s e = some s') (data : Bytes) :
    data ∈ s'.radioed ↔ data ∈ s.radioed ∨ e = .radio data := by
  cases step_stepped hs with
  | @client cid ce h0 h1 f hh hc =>
    cases f <;> simp [forwardPacket, setHandler, enqueueRaw, processLocally, broadcastFromRadio]
  | _ => simp [connect, removeClient, recapture, radioPayload, taken, broadcastFromRadio, eq_comm]

theorem capture_step {e : Event} (hs : step pb s e = some s') :
    s'.capture = s.capture ∨ ∃ nodeNum syntheticNodes firmwareVersion,
      s'.capture = captureDefaults pb nodeNum syntheticNodes firmwareVersion := by
  cases step_stepped hs with
  | @client cid ce h0 h1 f hh hc => cases f <;> exact .inl rfl
  | recapture syntheticNodes => exact .inr ⟨_, _, _, rfl⟩
  | _ => exact .inl rfl

/-- What the server holds that a client may be sent announces nothing of its own. -/
structure Relays (pb : Protobuf E) (s : TCPServer E) : Prop where
  capture : PlainCapture pb (world s)
  readQueue : ∀ payload ∈ s.phys.readQueue, payload ∈ s.radioed
  clients : ∀ h ∈ s.handlers, Announces pb s.radioed h

theorem Relays.step (hrt : pb.FromRadioRoundTrip) {e : Event} (hi : Relays pb s)
    (hs : step pb s e = some s') : Relays pb s' := by
  have hsub : ∀ data ∈ s.radioed, data ∈ s'.radioed := by
    intro data hm
    exact (radioed_step hs data).mpr (.inl hm)
  refine ⟨?_, ?_, ?_⟩
  · show ∀ e ∈ s'.capture.captured, Plain pb e
    rcases capture_step hs with hc | ⟨nodeNum, syntheticNodes, firmwareVersion, hc⟩ <;> rw [hc]
    · exact hi.capture
    · exact plain_captureDefaults hrt nodeNum syntheticNodes firmwareVersion
  · intro payload hm
    rcases readQueue_step hs payload hm with hm | ⟨he, -⟩
    · exact hsub payload (hi.readQueue payload hm)
    · exact (radioed_step hs payload).mpr (.inr he)
  · refine step_forall hs ?_ (Announces.new pb s'.radioed) ?_ ?_
    · intro h hm
      exact (hi.clients h hm).mono hsub
    · intro h h' ce f hc ha
      exact clientStep_announces hrt hi.capture ha hc
    · intro data hdata h ha
      refine ha.put ?_
      cases hdata with
      | echo hf => exact .inl (announcement_fromRadio hrt _)
      | radio hq => exact .inr (hsub data (hi.readQueue data (hq ▸ List.mem_cons_self)))

/-- **In every run of the server, what the replays a client asked for announce is, in
order, what it asked for**, but for a last request that is not answered yet or never. -/
theorem run_configComplete (hrt : pb.FromRadioRoundTrip) (config : Config.AppConfig)
    (es : List Event) (hr : run (step pb) (init config) es = some s) :
    ∀ h ∈ s.handlers, Answered pb s.radioed h := by
  have hinit : Relays pb (init config : TCPServer E) :=
    ⟨List.forall_mem_nil _, List.forall_mem_nil _, List.forall_mem_nil _⟩
  have hi : Relays pb s := invariant (fun s e t hi hs => hi.step hrt hs) hinit hr
  intro h hm
  exact (hi.clients h hm).answered

set_option maxRecDepth 10000 in
theorem run_configComplete_once :
    ∃ s, run (step wire) (init {}) configured = some s ∧
      ∀ h ∈ s.handlers, Answered wire s.radioed h := by
  obtain ⟨s, hs⟩ : ∃ s, run (step wire) (init {}) configured = some s :=
    Option.isSome_iff_exists.mp (by decide)
  exact ⟨s, hs, run_configComplete wire_fromRadioRoundTrip {} _ hs⟩

/-- Start-up with one channel and one known node, and a client that asks for nonce 0. -/
def connected : List Event :=
  [.radio (wire.serializeFromRadio ⟨1, .myInfo ⟨0x11, 1, 20200, [], 0, 1⟩⟩), .processIncoming,
    .cacheMyInfo, .recapture 80,
    .radio (wire.serializeFromRadio ⟨2, .nodeInfo ⟨5, none, none, 0, 0, none, false, none, false,
      false⟩⟩), .processIncoming,
    .radio (wire.serializeFromRadio ⟨3, .channel ⟨0, none, 1⟩⟩), .processIncoming,
    .connect "192.168.1.50",
    .client 0 (.payload (wire.serializeToRadio (.wantConfigId 0)) 100)]

/-- The handler of a reconnect, and the refresh of the client to its end. -/
def refreshed : List Event :=
  [.cacheMyInfo, .recapture 80, .client 0 .refresh] ++
    List.replicate 14 (.client 0 (.resumeRefresh 0 false))

/-- The physical node's own ConfigComplete, up to the client's connection. -/
def relayed : List Event :=
  [.radio (wire.serializeFromRadio ⟨4, .configCompleteId 99⟩), .processIncoming,
    .client 0 .writeNext]

/-- A request whose replay loses the connection. -/
def cutShort : List Event :=
  [.client 0 (.payload (wire.serializeToRadio (.wantConfigId 7)) 200), .client 0 (.resumeRead true)]

/-- All the nonces announced to a client, and those it was to be answered with. -/
def announcements (h : ClientHandler Unit) : List UInt32 × List UInt32 :=
  (h.written.filterMap fun e => announcement wire e.2, h.requested)

set_option maxRecDepth 10000 in
/-- The nonce 0 is not answered, nor is a request whose replay fails. A refresh
announces 0 to a client that waits for nothing, and the physical node's
ConfigComplete is passed on. -/
theorem run_configComplete_unasked :
    (run (step wire) (init {}) connected).map (fun s => s.handlers.map fun h =>
      (announcements h, h.read)) = some [(([], []), .reading)] ∧
    (run (step wire) (init {}) (connected ++ cutShort)).map (fun s => s.handlers.map fun h =>
      (announcements h, h.read)) = some [(([], [7]), .failed .connectionReset)] ∧
    (run (step wire) (init {}) (connected ++ refreshed ++ relayed)).map (fun s =>
      s.handlers.map announcements) = some [([0, 99], [])] := by
  decide

end Multiplextashtic.Server

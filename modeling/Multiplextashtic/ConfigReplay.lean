import Multiplextashtic.Config
import Multiplextashtic.ConfigCapture

/-! # Config replay

`ConfigReplayBuilder.replay` of `config_capture.py`. A replay writes a message
and waits for the writer to drain; while it waits, anything may change what it
reads next. A *turn* runs from one wait to the next. -/
namespace Multiplextashtic.ConfigReplay
open Multiplextashtic.Protocol Multiplextashtic.Messages Multiplextashtic.Config
open Multiplextashtic.Cache Multiplextashtic.Capture

def nonceOnlyConfig : UInt32 := 69420
def nonceOnlyDb : UInt32 := 69421
def fallbackNodeNum : NodeNum := 0x12345678
def broadcastNum : NodeNum := 0xFFFFFFFF

/-- `-Mx` and the version of the package. -/
def versionSuffix : String := "-Mx1.0.0"

/-- What a turn reads. -/
structure Env where
  config : AppConfig
  cache : StateCache
  capture : ConfigCapture

/-- The write a replay waits on, with what the loop around it has left. -/
inductive Phase where
  | start
  | myInfo
  | ownNodeInfo
  | metadata
  | channel (next sent : Nat)
  | capturedChannel (rest : List Entry)
  | config (rest : List Entry)
  | knownNode (rest : List (NodeNum × CachedNode)) (sent : Nat)
  | syntheticNode (rest : List Entry)
  | configComplete
  deriving DecidableEq, Repr

structure Replay where
  configId : UInt32
  nodeNum : NodeNum
  nextId : Nat
  sent : Nat
  phase : Phase
  deriving DecidableEq, Repr

/-- A replay before its first turn. -/
def Replay.new (myNodeNum : NodeNum) (configId : UInt32) : Replay :=
  ⟨configId, if myNodeNum ≠ 0 then myNodeNum else fallbackNodeNum, 1, 0, .start⟩

inductive Turn where
  | wrote (data : Bytes) (r : Replay)
  | returned (sent : Nat)
  | raised (e : PyError)
  deriving DecidableEq, Repr

/-! ## The messages -/

/-- A cached node as a NodeInfo, with the given metrics where none are cached. -/
def rebuildNode (num : NodeNum) (node : CachedNode) (noMetrics : CachedMetrics) : NodeInfo :=
  let metrics := node.deviceMetrics.getD noMetrics
  let pos := node.position.getD ⟨0, 0, 0, 0⟩
  { num
    user := some ⟨node.user.id, node.user.longName, node.user.shortName, node.user.hwModel,
      node.user.role.getD 0, node.user.publicKey.getD []⟩
    position := some ⟨some pos.latitudeI, some pos.longitudeI, some pos.altitude, pos.time⟩
    snr := node.snr
    lastHeard := node.lastHeard
    deviceMetrics := some ⟨some metrics.batteryLevel, some metrics.voltage,
      some metrics.channelUtilization, some metrics.airUtilTx⟩
    viaMqtt := node.viaMqtt
    hopsAway := some node.hopsAway
    isFavorite := node.isFavorite.getD false
    isIgnored := node.isIgnored.getD false }

def knownNodeInfo (num : NodeNum) (node : CachedNode) : NodeInfo :=
  rebuildNode num node ⟨0, 0, 0, 0⟩

def ownNodeInfo (env : Env) (r : Replay) : NodeInfo :=
  let vn := env.config.virtualNode
  match vn.syncPhysicalIdentity, env.cache.nodeInfo with
  | true, some cached => rebuildNode r.nodeNum cached ⟨100, floatBits 42 10, 0, 0⟩
  | _, _ => defaultOwnNode r.nodeNum vn.longName vn.shortName

def myNodeInfo (env : Env) (r : Replay) : MyNodeInfo :=
  match env.config.virtualNode.syncPhysicalIdentity, env.cache.myInfo with
  | true, some cached =>
    { myNodeNum := cached.myNodeNum
      rebootCount := cached.rebootCount
      minAppVersion := cached.minAppVersion.getD 20200
      deviceId := cached.deviceId.getD (virtualDeviceId r.nodeNum)
      firmwareEdition := cached.firmwareEdition.getD 0
      nodedbCount := cached.nodedbCount.getD 0 }
  | _, _ => defaultMyInfo r.nodeNum 0

def channelInfo (ch : CachedChannel) : Channel :=
  ⟨ch.index, some ⟨ch.psk, ch.name, 0, ch.uplinkEnabled, ch.downlinkEnabled, none⟩, ch.role⟩

/-- The firmware version of a captured metadata message gets the suffix. -/
def suffixed {E : Type} : FromRadioVariant E → FromRadioVariant E
  | .metadata md =>
    .metadata (if md.firmwareVersion = "" then md
      else { md with firmwareVersion := md.firmwareVersion ++ versionSuffix })
  | variant => variant

/-- `sorted(known_nodes.items())` without the broadcast number. -/
def sortedNodes (cache : StateCache) : List (NodeNum × CachedNode) :=
  (cache.knownNodes.insertionSort fun a b => a.1 ≤ b.1).filter fun e => e.1 ≠ broadcastNum

def Env.entries (env : Env) (type : EntryType) : List Entry :=
  env.capture.captured.filter fun e => e.type = type

/-- `skip_types` -/
def skipped : EntryType → Bool
  | .config _ => false
  | .moduleConfig _ => false
  | _ => true

def Env.configEntries (env : Env) : List Entry :=
  env.capture.captured.filter fun e => !skipped e.type

/-! ## Turns -/

section
variable {E : Type} (pb : Protobuf E)

/-- The message under the next id, framed for the size check. -/
def encode (r : Replay) (variant : FromRadioVariant E) : Except PyError Bytes :=
  if r.nextId ≥ 2 ^ 32 then .error (.valueError s!"Value out of range: {r.nextId}")
  else
    let data := pb.serializeFromRadio ⟨UInt32.ofNat r.nextId, variant⟩
    (encodeFrame data).map fun _ => data

def sendFr (r : Replay) (variant : FromRadioVariant E) (phase : Phase) : Turn :=
  match encode pb r variant with
  | .error e => .raised e
  | .ok data => .wrote data { r with nextId := r.nextId + 1, phase }

/-- `send_captured` for each entry: one that does not parse or is too large is skipped. -/
def sendCaptured (phase : List Entry → Phase) (done : Replay → Turn) (r : Replay) :
    List Entry → Turn
  | [] => done r
  | entry :: rest =>
    match pb.parseFromRadio entry.data with
    | none => sendCaptured phase done r rest
    | some fr =>
      match encode pb r fr.variant with
      | .error _ => sendCaptured phase done { r with nextId := r.nextId + 1 } rest
      | .ok data => .wrote data { r with nextId := r.nextId + 1, phase := phase rest }

def sendConfigComplete (r : Replay) : Turn :=
  sendFr pb r (.configCompleteId r.configId) .configComplete

def nextSyntheticNode (r : Replay) (rest : List Entry) : Turn :=
  sendCaptured pb .syntheticNode (sendConfigComplete pb) r rest

def nextKnownNode (env : Env) (r : Replay) (sent : Nat) : List (NodeNum × CachedNode) → Turn
  | (num, node) :: rest =>
    sendFr pb r (.nodeInfo (knownNodeInfo num node)) (.knownNode rest (sent + 1))
  | [] =>
    if sent = 0 then nextSyntheticNode pb r (env.entries .nodeInfo) else sendConfigComplete pb r

def sendKnownNodes (env : Env) (r : Replay) : Turn :=
  nextKnownNode pb env r 0 (sortedNodes env.cache)

def afterConfigs (env : Env) (r : Replay) : Turn :=
  if r.configId = nonceOnlyConfig then sendConfigComplete pb r else sendKnownNodes pb env r

def nextConfig (env : Env) (r : Replay) (rest : List Entry) : Turn :=
  sendCaptured pb .config (afterConfigs pb env) r rest

def sendConfigs (env : Env) (r : Replay) : Turn := nextConfig pb env r env.configEntries

def nextCapturedChannel (env : Env) (r : Replay) (rest : List Entry) : Turn :=
  sendCaptured pb .capturedChannel (sendConfigs pb env) r rest

/-- The list the loop runs over is the cache's own, whatever became of it meanwhile. -/
def nextChannel (env : Env) (r : Replay) (next sent : Nat) : Turn :=
  match env.cache.channels[next]? with
  | some ch => sendFr pb r (.channel (channelInfo ch)) (.channel (next + 1) (sent + 1))
  | none =>
    if sent = 0 then nextCapturedChannel pb env r (env.entries .channel) else sendConfigs pb env r

def sendMetadata (env : Env) (r : Replay) : Turn :=
  match env.capture.captured.find? fun e => e.type = .metadata with
  | some entry =>
    match pb.parseFromRadio entry.data with
    | none => .raised .decodeError
    | some fr => sendFr pb r (suffixed fr.variant) .metadata
  | none => sendFr pb r (.metadata (defaultMetadata (defaultFirmware ++ versionSuffix))) .metadata

def sendOwnNodeInfo (env : Env) (r : Replay) : Turn :=
  sendFr pb r (.nodeInfo (ownNodeInfo env r)) .ownNodeInfo

def sendMyNodeInfo (env : Env) (r : Replay) : Turn :=
  sendFr pb r (.myInfo (myNodeInfo env r)) .myInfo

/-- Go on from where the replay stands. -/
def proceed (env : Env) (r : Replay) : Turn :=
  match r.phase with
  | .start => if r.configId = nonceOnlyDb then sendOwnNodeInfo pb env r else sendMyNodeInfo pb env r
  | .myInfo => sendOwnNodeInfo pb env r
  | .ownNodeInfo =>
    if r.configId = nonceOnlyDb then sendKnownNodes pb env r else sendMetadata pb env r
  | .metadata => nextChannel pb env r 0 0
  | .channel next sent => nextChannel pb env r next sent
  | .capturedChannel rest => nextCapturedChannel pb env r rest
  | .config rest => nextConfig pb env r rest
  | .knownNode rest sent => nextKnownNode pb env r sent rest
  | .syntheticNode rest => nextSyntheticNode pb r rest
  | .configComplete => .returned r.sent

/-- The drain returned. -/
def drained (env : Env) (r : Replay) : Turn := proceed pb env { r with sent := r.sent + 1 }

/-- The drain raised: inside `send_captured` that is caught. -/
def drainRaised (env : Env) (r : Replay) (e : PyError) : Turn :=
  match r.phase with
  | .capturedChannel _ => proceed pb env r
  | .config _ => proceed pb env r
  | .syntheticNode _ => proceed pb env r
  | _ => .raised e

end

/-! ## What a turn writes -/

variable {E : Type} {pb : Protobuf E} {env : Env} {r r' : Replay} {data : Bytes}

/-- No ConfigComplete hides in the entry. -/
def Plain (pb : Protobuf E) (e : Entry) : Prop :=
  ∀ fr, pb.parseFromRadio e.data = some fr → fr.configComplete? = none

/-- The entries a replay still has to send. -/
def Phase.pending : Phase → List Entry
  | .capturedChannel rest => rest
  | .config rest => rest
  | .syntheticNode rest => rest
  | _ => []

/-- A write of a replay for `configId`: of the ConfigComplete in the last phase, of
another message in the others. -/
structure Wrote (pb : Protobuf E) (configId : UInt32) (r : Replay) (data : Bytes) : Prop where
  sameId : r.configId = configId
  started : r.phase ≠ .start
  plain : ∀ e ∈ r.phase.pending, Plain pb e
  message : ∃ fr, pb.parseFromRadio data = some fr ∧
    fr.configComplete? = if r.phase = .configComplete then some configId else none

/-- The turn does not return, and what it writes it writes as it should. -/
def Sound (pb : Protobuf E) (configId : UInt32) : Turn → Prop
  | .wrote data r => Wrote pb configId r data
  | .returned _ => False
  | .raised _ => True

theorem encode_parses (hrt : pb.FromRadioRoundTrip) {variant : FromRadioVariant E}
    (h : encode pb r variant = .ok data) :
    pb.parseFromRadio data = some ⟨UInt32.ofNat r.nextId, variant⟩ := by
  unfold encode at h
  split at h
  · cases h
  · cases hf : encodeFrame (pb.serializeFromRadio ⟨UInt32.ofNat r.nextId, variant⟩) with
    | error e => simp [hf, Except.map] at h
    | ok f =>
      simp only [hf, Except.map, Except.ok.injEq] at h
      rw [← h]
      exact hrt _

theorem plain_filter {captured : List Entry} (h : ∀ e ∈ captured, Plain pb e) (p : Entry → Bool) :
    ∀ e ∈ captured.filter p, Plain pb e := fun e hm => h e (List.mem_of_mem_filter hm)

theorem sendFr_sound (hrt : pb.FromRadioRoundTrip) {variant : FromRadioVariant E} {phase : Phase}
    (hv : FromRadio.configComplete? ⟨0, variant⟩ = none) (hp : phase ≠ .configComplete)
    (hs : phase ≠ .start) (hrest : phase.pending = []) :
    Sound pb r.configId (sendFr pb r variant phase) := by
  unfold sendFr
  split
  · trivial
  · next data he =>
    refine ⟨rfl, hs, ?_, ⟨_, encode_parses hrt he, ?_⟩⟩
    · intro e (hm : e ∈ phase.pending)
      rw [hrest] at hm
      cases hm
    · rw [if_neg hp]; exact hv

theorem sendConfigComplete_sound (hrt : pb.FromRadioRoundTrip) :
    Sound pb r.configId (sendConfigComplete pb r) := by
  unfold sendConfigComplete sendFr
  split
  · trivial
  · next data he =>
    refine ⟨rfl, Phase.noConfusion, ?_, ⟨_, encode_parses hrt he, rfl⟩⟩
    intro e hm
    cases hm

/-- A loop over plain entries, given what comes after it. -/
theorem sendCaptured_sound (hrt : pb.FromRadioRoundTrip) {phase : List Entry → Phase}
    {done : Replay → Turn}
    (hphase : ∀ rest, phase rest ≠ .configComplete ∧ phase rest ≠ .start ∧
      (phase rest).pending = rest)
    (hdone : ∀ r, Sound pb r.configId (done r)) (rest : List Entry)
    (hrest : ∀ e ∈ rest, Plain pb e) :
    ∀ r, Sound pb r.configId (sendCaptured pb phase done r rest) := by
  induction rest with
  | nil => exact hdone
  | cons entry rest ih =>
    intro r
    obtain ⟨hentry, hrest⟩ := List.forall_mem_cons.mp hrest
    unfold sendCaptured
    split
    · exact ih hrest r
    · next fr hfr =>
      split
      · exact ih hrest { r with nextId := r.nextId + 1 }
      · next data he =>
        obtain ⟨hp, hs, hpending⟩ := hphase rest
        refine ⟨rfl, hs, ?_, ⟨_, encode_parses hrt he, ?_⟩⟩
        · show ∀ e ∈ (phase rest).pending, Plain pb e
          rw [hpending]; exact hrest
        · rw [if_neg hp]; exact hentry fr hfr

/-! From the end of a replay to its beginning. -/

theorem nextSyntheticNode_sound (hrt : pb.FromRadioRoundTrip) {rest : List Entry}
    (hrest : ∀ e ∈ rest, Plain pb e) : Sound pb r.configId (nextSyntheticNode pb r rest) :=
  sendCaptured_sound hrt (fun _ => ⟨Phase.noConfusion, Phase.noConfusion, rfl⟩)
    (fun _ => sendConfigComplete_sound hrt) rest hrest r

theorem nextKnownNode_sound (hrt : pb.FromRadioRoundTrip)
    (hc : ∀ e ∈ env.capture.captured, Plain pb e) (sent : Nat)
    (rest : List (NodeNum × CachedNode)) :
    Sound pb r.configId (nextKnownNode pb env r sent rest) := by
  cases rest with
  | cons n rest =>
    exact sendFr_sound hrt rfl Phase.noConfusion Phase.noConfusion rfl
  | nil =>
    rw [nextKnownNode]
    split
    · exact nextSyntheticNode_sound hrt (plain_filter hc _)
    · exact sendConfigComplete_sound hrt

theorem afterConfigs_sound (hrt : pb.FromRadioRoundTrip)
    (hc : ∀ e ∈ env.capture.captured, Plain pb e) (r : Replay) :
    Sound pb r.configId (afterConfigs pb env r) := by
  unfold afterConfigs
  split
  · exact sendConfigComplete_sound hrt
  · exact nextKnownNode_sound hrt hc 0 _

theorem nextConfig_sound (hrt : pb.FromRadioRoundTrip)
    (hc : ∀ e ∈ env.capture.captured, Plain pb e) {rest : List Entry}
    (hrest : ∀ e ∈ rest, Plain pb e) (r : Replay) :
    Sound pb r.configId (nextConfig pb env r rest) :=
  sendCaptured_sound hrt (fun _ => ⟨Phase.noConfusion, Phase.noConfusion, rfl⟩)
    (afterConfigs_sound hrt hc) rest hrest r

theorem nextCapturedChannel_sound (hrt : pb.FromRadioRoundTrip)
    (hc : ∀ e ∈ env.capture.captured, Plain pb e) {rest : List Entry}
    (hrest : ∀ e ∈ rest, Plain pb e) : Sound pb r.configId (nextCapturedChannel pb env r rest) :=
  sendCaptured_sound hrt (fun _ => ⟨Phase.noConfusion, Phase.noConfusion, rfl⟩)
    (nextConfig_sound hrt hc (plain_filter hc _)) rest hrest r

theorem nextChannel_sound (hrt : pb.FromRadioRoundTrip)
    (hc : ∀ e ∈ env.capture.captured, Plain pb e) (next sent : Nat) :
    Sound pb r.configId (nextChannel pb env r next sent) := by
  unfold nextChannel
  split
  · exact sendFr_sound hrt rfl Phase.noConfusion Phase.noConfusion rfl
  · split
    · exact nextCapturedChannel_sound hrt hc (plain_filter hc _)
    · exact nextConfig_sound hrt hc (plain_filter hc _) r

theorem sendMetadata_sound (hrt : pb.FromRadioRoundTrip)
    (hc : ∀ e ∈ env.capture.captured, Plain pb e) :
    Sound pb r.configId (sendMetadata pb env r) := by
  unfold sendMetadata
  split
  · next entry hfind =>
    split
    · trivial
    · next fr hfr =>
      have hplain := hc entry (List.mem_of_find?_eq_some hfind) fr hfr
      refine sendFr_sound hrt ?_ Phase.noConfusion Phase.noConfusion rfl
      obtain ⟨id, variant⟩ := fr
      cases variant with
      | configCompleteId n => cases hplain
      | _ => rfl
  · exact sendFr_sound hrt rfl Phase.noConfusion Phase.noConfusion rfl

/-- **Every turn of a replay before its last writes as it should.** -/
theorem proceed_sound (hrt : pb.FromRadioRoundTrip) (hc : ∀ e ∈ env.capture.captured, Plain pb e)
    (hrest : ∀ e ∈ r.phase.pending, Plain pb e) (hp : r.phase ≠ .configComplete) :
    Sound pb r.configId (proceed pb env r) := by
  have hown : Sound pb r.configId (sendOwnNodeInfo pb env r) :=
    sendFr_sound hrt rfl Phase.noConfusion Phase.noConfusion rfl
  unfold proceed
  cases hph : r.phase with
  | start =>
    simp only
    split
    · exact hown
    · exact sendFr_sound hrt rfl Phase.noConfusion Phase.noConfusion rfl
  | myInfo => exact hown
  | ownNodeInfo =>
    simp only
    split
    · exact nextKnownNode_sound hrt hc 0 _
    · exact sendMetadata_sound hrt hc
  | metadata => exact nextChannel_sound hrt hc 0 0
  | channel next sent => exact nextChannel_sound hrt hc next sent
  | capturedChannel rest =>
    rw [hph] at hrest
    exact nextCapturedChannel_sound hrt hc hrest
  | config rest =>
    rw [hph] at hrest
    exact nextConfig_sound hrt hc hrest r
  | knownNode rest sent => exact nextKnownNode_sound hrt hc sent rest
  | syntheticNode rest =>
    rw [hph] at hrest
    exact nextSyntheticNode_sound hrt hrest
  | configComplete => exact absurd hph hp

theorem drained_sound (hrt : pb.FromRadioRoundTrip) (hc : ∀ e ∈ env.capture.captured, Plain pb e)
    (hrest : ∀ e ∈ r.phase.pending, Plain pb e) (hp : r.phase ≠ .configComplete) :
    Sound pb r.configId (drained pb env r) :=
  proceed_sound (r := { r with sent := r.sent + 1 }) hrt hc hrest hp

theorem drained_configComplete (hp : r.phase = .configComplete) :
    drained pb env r = .returned (r.sent + 1) := by
  simp [drained, proceed, hp]

theorem drainRaised_sound (hrt : pb.FromRadioRoundTrip)
    (hc : ∀ e ∈ env.capture.captured, Plain pb e)
    (hrest : ∀ e ∈ r.phase.pending, Plain pb e) (e : PyError) :
    Sound pb r.configId (drainRaised pb env r e) := by
  unfold drainRaised
  split
  · next rest hph => exact proceed_sound hrt hc hrest (by rw [hph]; exact Phase.noConfusion)
  · next rest hph => exact proceed_sound hrt hc hrest (by rw [hph]; exact Phase.noConfusion)
  · next rest hph => exact proceed_sound hrt hc hrest (by rw [hph]; exact Phase.noConfusion)
  · trivial

theorem plain_captureDefaults (hrt : pb.FromRadioRoundTrip) (nodeNum : NodeNum)
    (syntheticNodes : Nat) (firmwareVersion : Option String) :
    ∀ e ∈ (captureDefaults pb nodeNum syntheticNodes firmwareVersion).captured, Plain pb e := by
  intro e he fr hfr
  obtain ⟨variant, hentry, hv⟩ := captureDefaults_entry pb he
  rw [hentry, entry, hrt] at hfr
  cases hfr
  cases variant with
  | configCompleteId nonce => exact absurd rfl (hv nonce)
  | _ => rfl

end Multiplextashtic.ConfigReplay

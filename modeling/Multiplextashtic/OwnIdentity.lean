import Mathlib.Data.List.Chain
import Multiplextashtic.Connection
import Multiplextashtic.ReplayMessages

/-! # The identity a replay shows

A full replay names the own node in two messages. The number in MyNodeInfo is
the cached one, the number in OwnNodeInfo is the one the replay began with, and
its user is cached again elsewhere. After a reconnect the three change one by
one: where each turn finds what is cached at the number of its replay, they are
those of one node. -/
namespace Multiplextashtic.ConfigReplay
open Multiplextashtic.Protocol Multiplextashtic.Messages Multiplextashtic.Config
open Multiplextashtic.Cache Multiplextashtic.Capture Multiplextashtic.Server Relation

variable {E : Type} {pb : Protobuf E} {env : Env} {r r' : Replay}

/-! ## The two messages -/

def myInfoIn : FromRadioVariant E → Option MyNodeInfo
  | .myInfo info => some info
  | _ => none

/-- The number and the id a NodeInfo shows. -/
def identity (info : NodeInfo) : NodeNum × Option String := (info.num, info.user.map User.id)

/-- The message is a NodeInfo of the number, with the id of that number. -/
def Shows (num : NodeNum) (variant : FromRadioVariant E) : Prop :=
  (nodeInfoIn variant).map identity = some (num, some (nodeId num))

instance (num : NodeNum) (variant : FromRadioVariant E) : Decidable (Shows num variant) :=
  inferInstanceAs (Decidable (_ = _))

/-- Each MyNodeInfo is followed by the node it names. -/
def SameNode (sent : List (FromRadioVariant E)) : Prop :=
  sent.IsChain fun message next => ∀ info ∈ myInfoIn message, Shows info.myNodeNum next

instance (sent : List (FromRadioVariant E)) : Decidable (SameNode sent) :=
  inferInstanceAs (Decidable (sent.IsChain _))

theorem SameNode.concat {sent : List (FromRadioVariant E)} (h : SameNode sent)
    {variant : FromRadioVariant E}
    (hlast : ∀ info, sent.getLast? = some (.myInfo info) → Shows info.myNodeNum variant) :
    SameNode (sent ++ [variant]) := by
  refine List.isChain_append.mpr ⟨h, .singleton _, ?_⟩
  intro message hmessage next hnext info hinfo
  cases hnext
  cases message with
  | myInfo info =>
    cases hinfo
    exact hlast info hmessage
  | _ => cases hinfo

/-- What is cached of the own node goes by the number of the replay, in the turns
that tell of it. -/
def agrees (env : Env) (r : Replay) : Bool :=
  !env.config.virtualNode.syncPhysicalIdentity ||
    match r.phase with
    | .start => r.configId == nonceOnlyDb || env.cache.myInfo.all (·.myNodeNum == r.nodeNum)
    | .myInfo => env.cache.nodeInfo.all (·.num == r.nodeNum)
    | _ => true

/-- The cached own node has the id of its number. -/
def OwnId (env : Env) : Prop :=
  ∀ node, env.cache.nodeInfo = some node → node.user.id = nodeId node.num

/-- MyNodeInfo has the number of the replay where the two agree, and nowhere else. -/
theorem myNodeInfo_num_iff (hp : r.phase = .start) (hid : r.configId ≠ nonceOnlyDb) :
    (myNodeInfo env r).myNodeNum = r.nodeNum ↔ agrees env r = true := by
  unfold agrees myNodeInfo
  rw [hp]
  split
  · next cached hsync hcached => simp [hsync, hid, hcached]
  · next hother =>
    refine iff_of_true rfl ?_
    cases hsync : env.config.virtualNode.syncPhysicalIdentity with
    | false => rfl
    | true =>
      cases hcached : env.cache.myInfo with
      | none => simp
      | some cached => exact absurd hcached (hother cached hsync)

/-- OwnNodeInfo shows the number of the replay where the two agree, and nowhere else. -/
theorem ownNodeInfo_shows_iff (hp : r.phase = .myInfo) (hown : OwnId env) :
    Shows r.nodeNum (.nodeInfo (ownNodeInfo env r) : FromRadioVariant E) ↔
      agrees env r = true := by
  have hshows : Shows r.nodeNum (.nodeInfo (ownNodeInfo env r) : FromRadioVariant E) ↔
      (ownNodeInfo env r).user.map User.id = some (nodeId r.nodeNum) := by
    show some (identity _) = _ ↔ _
    rw [Option.some_inj, identity, ownNodeInfo_num, Prod.mk.injEq, and_iff_right rfl]
  rw [hshows]
  unfold agrees ownNodeInfo
  rw [hp]
  simp only
  split
  · next cached hsync hcached =>
    simp [hsync, hcached, rebuildNode, hown cached hcached, nodeId_injective.eq_iff]
  · next hother =>
    refine iff_of_true rfl ?_
    cases hsync : env.config.virtualNode.syncPhysicalIdentity with
    | false => rfl
    | true =>
      cases hcached : env.cache.nodeInfo with
      | none => simp
      | some cached => exact absurd hcached (hother cached hsync)

/-! ## What a turn tells of the own node -/

/-- The message of a turn that began in this phase, under this number. -/
inductive Tells (phase : Phase) (num : NodeNum) : FromRadioVariant E → Replay → Prop
  | myInfo {info : MyNodeInfo} {r' : Replay} : phase = .start → r'.phase = .myInfo →
      r'.nodeNum = info.myNodeNum → Tells phase num (.myInfo info) r'
  | ownNode {variant : FromRadioVariant E} {r' : Replay} : phase = .myInfo → Shows num variant →
      Tells phase num variant r'
  | other {variant : FromRadioVariant E} {r' : Replay} : phase ≠ .myInfo →
      (∀ info, variant ≠ .myInfo info) → Tells phase num variant r'

theorem skips_rank (hr : ReflTransGen (Skips pb env) r r') :
    r = r' ∨ 2 ≤ r.phase.rank ∧ 2 ≤ r'.phase.rank := by
  have hskip {r r' : Replay} (hs : Skips pb env r r') :
      2 ≤ r.phase.rank ∧ 2 ≤ r'.phase.rank := by
    cases hs with
    | unparsed hl hp | tooLarge hl hp => exact ⟨hp ▸ hl.rank _, hl.rank _⟩
    | _ => simp_all [Replay.goto, Phase.rank]
  induction hr with
  | refl => exact .inl rfl
  | tail _ hs ih =>
    rcases ih with rfl | ⟨hfirst, -⟩
    · exact .inr (hskip hs)
    · exact .inr ⟨hfirst, (hskip hs).2⟩

theorem agrees_of_rank (h : 2 ≤ r.phase.rank) : agrees env r = true := by
  unfold agrees
  split
  · next hp => simp [hp, Phase.rank] at h
  · next hp => simp [hp, Phase.rank] at h
  · exact Bool.or_true _

/-- No entry of a loop holds a MyNodeInfo. -/
theorem captured_myInfo {phase : List Entry → Phase} (hl : Loop phase) {e : Entry}
    {rest : List Entry} (hp : Proper pb (phase (e :: rest))) {fr : FromRadio E}
    (hfr : pb.parseFromRadio e.data = some fr) (info : MyNodeInfo) : fr.variant ≠ .myInfo info := by
  intro heq
  obtain ⟨hholds, htype, -⟩ := hp.head hl hfr
  rw [heq] at hholds
  generalize e.type = type at hholds htype
  cases hholds
  exact htype rfl

theorem Emits.tells (ht : ∀ e ∈ env.capture.captured, Typed pb e) (hown : OwnId env)
    {variant : FromRadioVariant E} {phase : Phase} (hem : Emits pb env r variant phase)
    (hp : Proper pb r.phase) (ha : agrees env r = true) :
    Tells r.phase r.nodeNum variant (r.wrote phase) := by
  cases hem with
  | own hs =>
    cases hs with
    | myInfo hphase hid => exact .myInfo hphase rfl ((myNodeInfo_num_iff hphase hid).mpr ha).symm
    | ownNodeInfo hphase => exact .ownNode hphase ((ownNodeInfo_shows_iff hphase hown).mpr ha)
    | metadata hphase _ hm =>
      obtain ⟨md, hmd⟩ := metadataMessage_typed ht
      rw [hmd] at hm
      cases hm
      exact .other (by rw [hphase]; nofun) nofun
    | ownFirst hphase | channel hphase | knownNode hphase | configComplete hphase =>
      exact .other (by rw [hphase]; nofun) nofun
  | captured hl hphase hfr =>
    rw [hphase] at hp ⊢
    exact .other (by cases hl <;> nofun) (captured_myInfo hl hp hfr)

/-- **What a turn tells of the own node**, where it finds the number it goes by. -/
theorem proceed_tells (hrt : pb.FromRadioRoundTrip) (hc : Captured pb env.capture)
    (hown : OwnId env) (hp : Proper pb r.phase) (ha : agrees env r = true) {data : Bytes}
    (hturn : proceed pb env r = .wrote data r') :
    ∃ fr, pb.parseFromRadio data = some fr ∧ Tells r.phase r.nodeNum fr.variant r' ∧
      Proper pb r'.phase := by
  have ht := typed_captured hrt hc
  have hproceeds := proceed_proceeds pb env r
  rw [hturn] at hproceeds
  cases hproceeds with
  | @wrote r₁ variant phase _ hr hem he =>
    have hp₁ : Proper pb r₁.phase := by
      clear hem he hturn
      induction hr with
      | refl => exact hp
      | tail _ hs ih => exact hs.proper ht ih
    refine ⟨_, encode_parses hrt he, ?_, hem.proper hp₁⟩
    rcases skips_rank hr with rfl | ⟨hrank, hrank₁⟩
    · exact hem.tells ht hown hp ha
    · have htells := hem.tells ht hown hp₁ (agrees_of_rank hrank₁)
      cases htells with
      | myInfo hphase => rw [hphase] at hrank₁; exact absurd hrank₁ (by decide)
      | ownNode hphase => rw [hphase] at hrank₁; exact absurd hrank₁ (by decide)
      | other _ hother =>
        refine .other ?_ hother
        intro hphase
        rw [hphase] at hrank
        exact absurd hrank (by decide)

end Multiplextashtic.ConfigReplay

namespace Multiplextashtic.Client
open Multiplextashtic.Protocol Multiplextashtic.Messages Multiplextashtic.Config
open Multiplextashtic.Capture Multiplextashtic.ConfigReplay Multiplextashtic.Server

variable {E : Type} {pb : Protobuf E} {w : World} {h h' : ClientHandler E}

/-! ## The tasks of a connection -/

/-- What a task has sent its client. -/
def sentBy (pb : Protobuf E) (h : ClientHandler E) (source : Source) : List (FromRadioVariant E) :=
  received pb (writesOf source h.written)

/-- The task owes its client the node of this number, unless it has stopped. -/
inductive OwesNode (num : NodeNum) : Standing → Prop
  | waiting {r : Replay} : r.phase = .myInfo → r.nodeNum = num → OwesNode num (.waiting r)
  | stopped : OwesNode num .stopped

/-- The task has shown one node at a time, or is about to. -/
structure ShowsOne (pb : Protobuf E) (h : ClientHandler E) (source : Source) : Prop where
  sameNode : SameNode (sentBy pb h source)
  last : ∀ info, (sentBy pb h source).getLast? = some (.myInfo info) →
    OwesNode info.myNodeNum (standing h source)
  proper : ∀ r, standing h source = .waiting r → Proper pb r.phase

/-- The tasks that run replays have shown one node at a time. -/
def AllShowOne (pb : Protobuf E) (h : ClientHandler E) : Prop :=
  ∀ source, source.replays = true → ShowsOne pb h source

theorem ShowsOne.same {source : Source} (hs : ShowsOne pb h source)
    (hwrites : writesOf source h'.written = writesOf source h.written)
    (hstanding : standing h' source = standing h source ∨ standing h' source = .stopped) :
    ShowsOne pb h' source := by
  have hsent : sentBy pb h' source = sentBy pb h source := congrArg (received pb) hwrites
  refine ⟨hsent ▸ hs.sameNode, ?_, ?_⟩
  · intro info hlast
    rcases hstanding with hold | hold
    · rw [hold]
      exact hs.last info (hsent ▸ hlast)
    · rw [hold]
      exact .stopped
  · intro r hr
    rcases hstanding with hold | hold
    · exact hs.proper r (hold ▸ hr)
    · rw [hold] at hr
      cases hr

/-- A turn of the replay `r`, from a task that was free or stood in it. -/
theorem ShowsOne.turn {source : Source} {turn : Turn} {r : Replay} (hs : ShowsOne pb h source)
    (hturn : TurnOf source turn h h')
    (hstands : standing h source = .free ∨ standing h source = .waiting r)
    (hwrote : ∀ data r', turn = .wrote data r' → ∃ fr, pb.parseFromRadio data = some fr ∧
      Tells r.phase r.nodeNum fr.variant r' ∧ Proper pb r'.phase)
    (hreturned : turnReturns turn = true → r.phase ≠ .myInfo) : ShowsOne pb h' source := by
  have howes {info : MyNodeInfo} (hlast : (sentBy pb h source).getLast? = some (.myInfo info)) :
      r.phase = .myInfo ∧ r.nodeNum = info.myNodeNum := by
    have ho := hs.last info hlast
    rcases hstands with hfree | hwaits
    · rw [hfree] at ho
      cases ho
    · rw [hwaits] at ho
      cases ho with
      | waiting hphase hnum => exact ⟨hphase, hnum⟩
  have hwrites := hturn.writes
  have hown := hturn.own
  cases turn with
  | wrote data r' =>
    obtain ⟨fr, hfr, htells, hproper⟩ := hwrote data r' rfl
    have hsent : sentBy pb h' source = sentBy pb h source ++ [fr.variant] := by
      rw [sentBy, hwrites]
      exact received_concat hfr _
    generalize fr.variant = variant at htells hsent
    refine ⟨?_, ?_, ?_⟩
    · rw [hsent]
      refine hs.sameNode.concat ?_
      intro info hlast
      obtain ⟨hphase, hnum⟩ := howes hlast
      cases htells with
      | myInfo hstart => rw [hphase] at hstart; cases hstart
      | ownNode _ hshows => exact hnum ▸ hshows
      | other hne => exact absurd hphase hne
    · intro info hlast
      rw [hsent, List.getLast?_concat] at hlast
      rw [hown]
      cases hlast
      cases htells with
      | myInfo _ hphase hnum => exact .waiting hphase hnum
      | ownNode _ hshows => cases hshows
      | other _ hne => exact absurd rfl (hne info)
    · intro r₁ hr
      rw [hown] at hr
      cases hr
      exact hproper
  | returned sent =>
    have hsent : sentBy pb h' source = sentBy pb h source :=
      congrArg (received pb) (hwrites.trans (List.append_nil _))
    refine ⟨hsent ▸ hs.sameNode, ?_, ?_⟩
    · intro info hlast
      exact absurd (howes (hsent ▸ hlast)).1 (hreturned rfl)
    · intro r₁ hr
      rw [hown] at hr
      cases hr
  | raised e =>
    refine hs.same ?_ (.inr hown)
    rw [hwrites]
    exact List.append_nil _

theorem AllShowOne.turn {source : Source} {turn : Turn} {r : Replay} (hs : AllShowOne pb h)
    (hsource : source.replays = true) (hturn : TurnOf source turn h h')
    (hstands : standing h source = .free ∨ standing h source = .waiting r)
    (hwrote : ∀ data r', turn = .wrote data r' → ∃ fr, pb.parseFromRadio data = some fr ∧
      Tells r.phase r.nodeNum fr.variant r' ∧ Proper pb r'.phase)
    (hreturned : turnReturns turn = true → r.phase ≠ .myInfo) : AllShowOne pb h' := by
  intro source' hsource'
  by_cases hne : source' = source
  · subst hne
    exact (hs source' hsource).turn hturn hstands hwrote hreturned
  · exact (hs source' hsource').same (hturn.others_writes hne) (.inl (hturn.others source' hne))

/-- The replay a step goes on with, when it may write. -/
def goesOn (pb : Protobuf E) (w : World) (h : ClientHandler E) : ClientEvent → Option Replay
  | .payload payload now =>
    (pb.parseToRadio payload).bind fun toRadio =>
      if toRadio.nonce = 0 || throttled h toRadio.nonce now then none
      else some (Replay.new w.myNodeNum toRadio.nonce)
  | .resumeRead false =>
    match h.read with
    | .replaying r => some r
    | _ => none
  | .refresh => some (Replay.new w.myNodeNum 0)
  | .resumeRefresh i false =>
    match h.refreshes[i]? with
    | some (.replaying r) => some r
    | _ => none
  | _ => none

/-- What a replay writes as its drain returns or raises. -/
theorem replayTurn_tells (hrt : pb.FromRadioRoundTrip) (hc : Captured pb w.env.capture)
    (hown : OwnId w.env) {r : Replay} (hp : Proper pb r.phase) {lost : Bool}
    (ha : lost = true ∨ agrees w.env r = true) {data : Bytes} {r' : Replay}
    (hturn : replayTurn pb w r lost = .wrote data r') :
    ∃ fr, pb.parseFromRadio data = some fr ∧ Tells r.phase r.nodeNum fr.variant r' ∧
      Proper pb r'.phase := by
  cases lost with
  | false =>
    exact proceed_tells (r := { r with sent := r.sent + 1 }) hrt hc hown hp
      (ha.resolve_left nofun) hturn
  | true =>
    change drainRaised pb w.env r .connectionReset = _ at hturn
    rcases drainRaised_cases pb w.env r .connectionReset with
      hraised | ⟨hproceeds, phase, rest, hl, hphase⟩
    · rw [hraised] at hturn
      cases hturn
    · rw [hproceeds] at hturn
      have hrank : 2 ≤ r.phase.rank := by
        rw [hphase]
        exact hl.rank rest
      exact proceed_tells hrt hc hown hp (agrees_of_rank hrank) hturn

/-- **A step of a connection shows one node at a time**, if the replay that goes on
finds the number it goes by. -/
theorem AllShowOne.step (hrt : pb.FromRadioRoundTrip) (hc : Captured pb w.env.capture)
    (hown : OwnId w.env) {e : ClientEvent} (ha : (goesOn pb w h e).all (agrees w.env) = true)
    {f : Option (Forward E)} (hstep : clientStep pb w h e = some (h', f)) (hs : AllShowOne pb h) :
    AllShowOne pb h' := by
  have hfirst {source : Source} {configId : UInt32} {h₀ : ClientHandler E} (hs : AllShowOne pb h₀)
      (hsource : source.replays = true) (ha : agrees w.env (Replay.new w.myNodeNum configId) = true)
      (hstands : standing h₀ source = .free ∨
        standing h₀ source = .waiting (Replay.new w.myNodeNum configId))
      (hturn : TurnOf source (proceed pb w.env (Replay.new w.myNodeNum configId)) h₀ h') :
      AllShowOne pb h' :=
    hs.turn hsource hturn hstands
      (fun _ _ => proceed_tells (r := Replay.new _ _) hrt hc hown trivial ha) (fun _ => nofun)
  have hresumed {source : Source} {r : Replay} {lost : Bool} (hsource : source.replays = true)
      (hwaits : standing h source = .waiting r) (ha : lost = true ∨ agrees w.env r = true)
      (hturn : TurnOf source (replayTurn pb w r lost) h h') : AllShowOne pb h' := by
    refine hs.turn hsource hturn (.inr hwaits)
      (fun _ _ => replayTurn_tells hrt hc hown ((hs source hsource).proper r hwaits) ha) ?_
    intro hreturns
    rw [replayTurn_returned hreturns]
    nofun
  cases clientStep_replays hstep with
  | beside hb =>
    intro source hsource
    exact (hs source hsource).same (hb.writes hsource) (hb.standing source)
  | @request payload now toRadio hread hparse hnonce hthrottled =>
    have hsame : AllShowOne pb (request h toRadio.nonce now) :=
      fun source hsource => (hs source hsource).same rfl (.inl rfl)
    refine hfirst hsame rfl ?_ (.inl ?_) (readTurn_turnOf _ _)
    · simpa [goesOn, hparse, hnonce, hthrottled] using ha
    · show h.read.standing = .free
      rw [hread]
      rfl
  | @resumed r lost hread =>
    refine hresumed rfl (standing_request hread) ?_ (readTurn_turnOf h _)
    cases lost with
    | true => exact .inl rfl
    | false => exact .inr (by simpa [goesOn, hread] using ha)
  | refresh =>
    have hlen : h.refreshes.length < (beginRefresh h w).refreshes.length := by simp [beginRefresh]
    have hwaits : standing (beginRefresh h w) (.refresh h.refreshes.length) =
        .waiting (Replay.new w.myNodeNum 0) := by
      refine standing_refresh (t := .replaying (Replay.new w.myNodeNum 0)) ?_
      simp [beginRefresh]
    refine hfirst ?_ rfl (by simpa [goesOn] using ha) (.inr hwaits)
      (refreshTurn_turnOf _ hlen _)
    intro source hsource
    by_cases hne : source = .refresh h.refreshes.length
    · subst hne
      have habsent : standing h (.refresh h.refreshes.length) = .absent := by simp [standing]
      refine ⟨(hs _ hsource).sameNode, ?_, ?_⟩
      · intro info hlast
        have howes := (hs _ hsource).last info hlast
        rw [habsent] at howes
        cases howes
      · intro r hr
        rw [hwaits] at hr
        cases hr
        trivial
    · exact (hs source hsource).same rfl (.inl (beginRefresh_standing h w hne))
  | @refreshed i r lost hr =>
    obtain ⟨hi, -⟩ := List.getElem?_eq_some_iff.mp hr
    refine hresumed rfl (standing_refresh hr) ?_ (refreshTurn_turnOf h hi _)
    cases lost with
    | true => exact .inl rfl
    | false => exact .inr (by simpa [goesOn, hr] using ha)

theorem AllShowOne.new (pb : Protobuf E) (peerIp : String) : AllShowOne pb { peerIp } := by
  intro source hsource
  refine ⟨?_, ?_, ?_⟩
  · exact .nil
  · intro info hlast
    cases hlast
  · intro r hr
    cases source <;> cases hr

end Multiplextashtic.Client

namespace Multiplextashtic.Server
open Multiplextashtic.Protocol Multiplextashtic.Messages Multiplextashtic.Config
open Multiplextashtic.Cache Multiplextashtic.Capture Multiplextashtic.ConfigReplay
open Multiplextashtic.Client Run

variable {E : Type} {pb : Protobuf E} {s s' : TCPServer E}

/-! ## The whole server -/

/-- The user a message tells of, with the number of its node. -/
def userIn (pb : Protobuf E) : FromRadioVariant E → Option (NodeNum × User)
  | .nodeInfo info => info.user.map (info.num, ·)
  | .packet packet =>
    if packet.portnum = nodeinfoApp then
      (pb.parseUser packet.payload).map (packet.fromNode, ·)
    else none
  | _ => none

/-- A user in the payload has the id of its node. -/
def named (pb : Protobuf E) (payload : Bytes) : Bool :=
  ((pb.parseFromRadio payload).bind fun fr => userIn pb fr.variant).all
    fun told => told.2.id == nodeId told.1

/-- What the device sends in a step is named. -/
def sendsNamed (pb : Protobuf E) : Event → Bool
  | .radio payload => named pb payload
  | _ => true

/-- A replay that goes on finds the number it goes by. -/
def finds (pb : Protobuf E) (s : TCPServer E) : Event → Bool
  | .client cid e =>
    s.handlers[cid]?.all fun h => (goesOn pb (world s) h e).all (agrees (world s).env)
  | _ => true

/-- A node told of by a payload that is named has the id of its number. -/
theorem nodeTold_id {payload : Bytes} (hn : named pb payload = true) {node : CachedNode}
    (h : nodeTold pb (.payload payload) = some node) : node.user.id = nodeId node.num := by
  have hcached (num : NodeNum) (user : User) (hid : user.id = "" ∨ user.id = nodeId num) :
      (cachedUser num user).id = nodeId num := by
    show orElse user.id (nodeId num) = _
    unfold orElse
    rcases hid with hid | hid
    · exact if_pos hid
    · rw [hid, ite_self]
  unfold named at hn
  obtain ⟨variant, hm, hin⟩ := Option.bind_eq_some_iff.mp h
  obtain ⟨fr, hfr, rfl⟩ := Option.map_eq_some_iff.mp hm
  rw [hfr, Option.bind_some] at hn
  generalize fr.variant = variant at hn hin
  cases variant with
  | nodeInfo info =>
    cases hin
    refine hcached info.num _ ?_
    cases huser : info.user with
    | none => exact .inl rfl
    | some user => exact .inr (by simpa [userIn, huser] using hn)
  | packet packet =>
    simp only [nodeIn] at hin
    split at hin
    · next hport =>
      obtain ⟨user, huser, hin⟩ := Option.bind_eq_some_iff.mp hin
      split at hin <;> cases hin
      exact hcached packet.fromNode user (.inr (by simpa [userIn, hport, huser] using hn))
    · cases hin
  | _ => cases hin

/-- What the device has told of the own node, and what clients have been shown of it. -/
structure Identified (pb : Protobuf E) (s : TCPServer E) : Prop where
  queue : ∀ payload ∈ s.phys.readQueue, named pb payload = true
  ownId : OwnId (world s).env
  capture : Captured pb s.capture
  shown : ∀ h ∈ s.handlers, AllShowOne pb h

theorem update_ownId {cache : StateCache} {payload : Bytes} (hn : named pb payload = true)
    (ho : ∀ node, cache.nodeInfo = some node → node.user.id = nodeId node.num) :
    ∀ node, (updateCache pb cache payload).nodeInfo = some node →
      node.user.id = nodeId node.num := by
  intro node hnode
  rcases update_nodeInfo (u := .payload payload) hnode with htold | hkept
  · exact nodeTold_id hn htold
  · exact ho node hkept

theorem Identified.step (hrt : pb.FromRadioRoundTrip) {e : Event} (hi : Identified pb s)
    (hnamed : sendsNamed pb e = true) (hfinds : finds pb s e = true)
    (hs : step pb s e = some s') : Identified pb s' := by
  have hshown : ∀ h ∈ s'.handlers, AllShowOne pb h := by
    refine step_forall_client hs hi.shown (.new pb) ?_ ?_
    · rintro cid ce h h' f rfl hh hc
      refine AllShowOne.step hrt hi.capture hi.ownId ?_ hc
      simpa [finds, hh] using hfinds
    · intro data _ h hall source hsource
      exact (hall source hsource).same rfl (.inl rfl)
  cases step_stepped hs with
  | @client cid ce h h' f hh hc =>
    cases f <;> exact ⟨hi.queue, hi.ownId, hi.capture, hshown⟩
  | @radio payload hlen =>
    have hphys (phys : PhysicalNode) :
        (maybeCaptureMyInfo pb phys payload).readQueue = phys.readQueue := by
      unfold maybeCaptureMyInfo
      split
      · rfl
      · split <;> rfl
    refine ⟨?_, hi.ownId, hi.capture, hshown⟩
    intro p hp
    change p ∈ (maybeCaptureMyInfo pb s.phys payload).readQueue ++ [payload] at hp
    rw [hphys] at hp
    rcases List.mem_append.mp hp with hp | hp
    · exact hi.queue p hp
    · rw [List.mem_singleton.mp hp]
      exact hnamed
  | @dropped payload rest hq | @broadcast payload rest hq =>
    have hqueue := hi.queue
    rw [hq] at hqueue
    exact ⟨fun p hp => hqueue p (List.mem_cons_of_mem _ hp),
      update_ownId (hqueue payload List.mem_cons_self) hi.ownId, hi.capture, hshown⟩
  | recapture syntheticNodes => exact ⟨hi.queue, hi.ownId, .defaults .., hshown⟩
  | _ => exact ⟨hi.queue, hi.ownId, hi.capture, hshown⟩

/-- **Every full replay shows one node**, in every run in which each replay finds the
number it goes by. -/
theorem run_sameNode (hrt : pb.FromRadioRoundTrip) (config : AppConfig) (es : List Event)
    (hr : run (step pb) (init config) es = some s)
    (hnamed : ∀ e ∈ es, sendsNamed pb e = true)
    (hfinds : Along (step pb) (fun s e => finds pb s e = true) (init config) es) :
    ∀ h ∈ s.handlers, ∀ source, source.replays = true → SameNode (sentBy pb h source) := by
  have hboth := Along.and (C := fun _ e => sendsNamed pb e = true)
    (along_of_mem fun _ e he => hnamed e he) hfinds
  have hinit : Identified pb (init config : TCPServer E) := by
    refine ⟨List.forall_mem_nil _, ?_, .nothing, List.forall_mem_nil _⟩
    intro node hnode
    cases hnode
  have hi : Identified pb s := invariant_along (P := Identified pb)
    (fun s e s' hi hc hs => hi.step hrt hc.1 hc.2 hs) hinit hboth hr
  exact fun h hm source hsource => (hi.shown h hm source hsource).sameNode

/-- The device's MyNodeInfo and NodeInfo for a number. -/
def myInfoPayload (num : NodeNum) : Bytes :=
  wire.serializeFromRadio ⟨1, .myInfo ⟨num, 0, 20200, [], 0, 0⟩⟩

def nodeInfoOf (num : NodeNum) : NodeInfo where
  num
  user := some ⟨nodeId num, "Base", "BASE", 0, 0, []⟩
  position := none
  snr := 0
  lastHeard := 0
  deviceMetrics := none
  viaMqtt := false
  hopsAway := none
  isFavorite := false
  isIgnored := false

def nodeInfoPayload (num : NodeNum) : Bytes :=
  wire.serializeFromRadio ⟨2, .nodeInfo (nodeInfoOf num)⟩

/-- The device comes up with a number, and all it tells of itself is taken in. -/
def comesUp (num : NodeNum) : List Event :=
  [.radio (myInfoPayload num), .cacheMyInfo, .recapture 80, .radio (nodeInfoPayload num),
    .processIncoming, .processIncoming]

/-- A client asks for everything, and gets its first two messages. -/
def asks (cid : Nat) : List Event :=
  [.client cid (.payload (wire.serializeToRadio (.wantConfigId 7)) 100),
    .client cid (.resumeRead false)]

/-- One client asks while the handler of a reconnect still waits, and one behind it. -/
def reconnecting : List Event :=
  comesUp 5 ++ [.radio (myInfoPayload 6), .connect "192.168.1.50"] ++ asks 0 ++
    [.cacheMyInfo, .recapture 80, .connect "192.168.1.51"] ++ asks 1

/-- The numbers and ids of the own node a client has been sent. -/
def ownShown (h : ClientHandler Unit) : List NodeNum × List (NodeNum × Option String) :=
  let sent := sentBy wire h .request
  ((sent.filterMap myInfoIn).map (·.myNodeNum), (sent.filterMap nodeInfoIn).map identity)

set_option maxRecDepth 20000 in
/-- The new device is shown under the old id, and to the first client behind the old number. -/
theorem run_sameNode_reconnecting :
    (∀ e ∈ reconnecting, sendsNamed wire e = true) ∧
    ∃ s : TCPServer Unit, run (step wire) (init {}) reconnecting = some s ∧
      s.handlers.map ownShown =
        [([5], [(6, some "!00000005")]), ([6], [(6, some "!00000005")])] ∧
      ∀ h ∈ s.handlers, ¬ SameNode (sentBy wire h .request) := by
  have hrun : (run (step wire) (init {}) reconnecting).map (fun s => s.handlers.map ownShown) =
      some [([5], [(6, some "!00000005")]), ([6], [(6, some "!00000005")])] := by decide
  have hother : (run (step wire) (init {}) reconnecting).all (fun s =>
      s.handlers.all fun h => !SameNode (sentBy wire h .request)) = true := by decide
  obtain ⟨s, hs, hshown⟩ := Option.map_eq_some_iff.mp hrun
  rw [hs, Option.all_some, List.all_eq_true] at hother
  refine ⟨by decide, s, hs, hshown, ?_⟩
  intro h hm
  simpa using hother h hm

/-- A client asks before another device has come up, and one afterwards. -/
def reconnected : List Event :=
  comesUp 5 ++ [.connect "192.168.1.50"] ++ asks 0 ++ comesUp 6 ++ [.connect "192.168.1.51"] ++
    asks 1

set_option maxRecDepth 20000 in
theorem run_sameNode_reconnected :
    ∃ s : TCPServer Unit, run (step wire) (init {}) reconnected = some s ∧
      s.handlers.map ownShown =
        [([5], [(5, some "!00000005")]), ([6], [(6, some "!00000006")])] ∧
      ∀ h ∈ s.handlers, SameNode (sentBy wire h .request) := by
  have hrun : (run (step wire) (init {}) reconnected).map (fun s => s.handlers.map ownShown) =
      some [([5], [(5, some "!00000005")]), ([6], [(6, some "!00000006")])] := by decide
  obtain ⟨s, hs, hshown⟩ := Option.map_eq_some_iff.mp hrun
  refine ⟨s, hs, hshown, ?_⟩
  intro h hm
  exact run_sameNode wire_fromRadioRoundTrip {} reconnected hs (by decide) (by decide) h hm
    .request rfl

end Multiplextashtic.Server

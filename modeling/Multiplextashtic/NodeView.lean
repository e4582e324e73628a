import Multiplextashtic.ClientView
import Multiplextashtic.Freshness
import Multiplextashtic.ReplayNodes

/-! # What a client knows of a node

A replay takes down the known nodes when it comes to them, and sends them one by one. When
a node is told of meanwhile, that goes to the queue of the client, and what the replay has
taken down of the node is old by the time it is sent. But for that, and for what clients
send in the name of the node, a client that connects when a node is known knows of it what
the server does. -/
namespace Multiplextashtic.ConfigReplay
open Multiplextashtic.Protocol Multiplextashtic.Messages Multiplextashtic.Cache
open Multiplextashtic.Capture Multiplextashtic.Client Multiplextashtic.Server Replica Table

variable {E : Type} {pb : Protobuf E} {w w' : World} {t : List NodeInfo} {r r' : Replay}
  {variant : FromRadioVariant E} {phase : Phase} {h : ClientHandler E} {num : NodeNum}
  {cache : StateCache} {node : CachedNode} {told told' full : Prop}

/-! ## The nodes of the cache -/

/-- The node's user has an id and names. -/
structure Named (node : CachedNode) : Prop where
  id : node.user.id ≠ ""
  longName : node.user.longName ≠ ""
  shortName : node.user.shortName ≠ ""

theorem orElse_ne {s default : String} (hd : default ≠ "") : orElse s default ≠ "" := by
  unfold orElse
  split
  · exact hd
  · next hs => exact hs

theorem nodeId_ne (num : NodeNum) : nodeId num ≠ "" := by
  intro hempty
  have hlen := congrArg String.length hempty
  simp [nodeId] at hlen

/-- Whatever is told of a node, it gets an id and names. -/
theorem nodeTold_named {u : CacheUpdate} (hu : nodeTold pb u = some node) : Named node := by
  have huser (num : NodeNum) (user : User) : (cachedUser num user).id ≠ "" ∧
      (cachedUser num user).longName ≠ "" ∧ (cachedUser num user).shortName ≠ "" :=
    ⟨orElse_ne (nodeId_ne num), orElse_ne (by decide), orElse_ne (by decide)⟩
  rcases nodeTold_cases hu with ⟨info, -, rfl⟩ | ⟨packet, user, -, rfl⟩
  · obtain ⟨hid, hlong, hshort⟩ := huser info.num (info.user.getD emptyUser)
    exact ⟨hid, hlong, hshort⟩
  · obtain ⟨hid, hlong, hshort⟩ := huser packet.fromNode user
    exact ⟨hid, hlong, hshort⟩

/-- The known nodes are what has been told. -/
def Filled (pb : Protobuf E) (cache : StateCache) : Prop :=
  ∃ us, cache.knownNodes = (cacheAfter pb us).knownNodes

theorem Filled.updated (h : Filled pb cache) (u : CacheUpdate) :
    Filled pb (update pb cache u) := by
  obtain ⟨us, hus⟩ := h
  refine ⟨us ++ [u], ?_⟩
  have hlast : cacheAfter pb (us ++ [u]) = update pb (cacheAfter pb us) u := by
    rw [cacheAfter, List.foldl_concat, ← cacheAfter]
  rw [hlast, update_knownNodes, update_knownNodes, hus]

theorem Filled.unique (h : Filled pb cache) : Unique Prod.fst cache.knownNodes := by
  obtain ⟨us, hus⟩ := h
  exact hus ▸ knownNodes_unique pb us

theorem Filled.mem_iff (h : Filled pb cache) :
    (num, node) ∈ cache.knownNodes ↔ known cache num = some node := by
  have hget := get_eq_some_iff h.unique (a := (num, node)) (k := num)
  rw [and_iff_left rfl] at hget
  rw [← hget, known, Option.map_eq_some_iff]
  constructor
  · intro hsome
    exact ⟨_, hsome, rfl⟩
  · intro hrow
    obtain ⟨row, hrow, hnode⟩ := hrow
    rw [hrow, ← hnode, ← key_of_get hrow]

theorem Filled.named (h : Filled pb cache) (hk : known cache num = some node) : Named node := by
  obtain ⟨us, hus⟩ := h
  rw [known, hus, get_knownNodes, Option.map_map] at hk
  obtain ⟨node', hlast, rfl⟩ := Option.map_eq_some_iff.mp hk
  obtain ⟨u, -, hu⟩ := List.mem_filterMap.mp (mem_of_lastOf hlast)
  exact nodeTold_named hu

/-- A replay takes down what is known of a number. -/
theorem Filled.mem_sortedNodes (h : Filled pb cache) (hnum : num ≠ broadcastNum) :
    (num, node) ∈ sortedNodes cache ↔ known cache num = some node := by
  rw [ConfigReplay.mem_sortedNodes, h.mem_iff, and_iff_left hnum]

/-! ## The node in a message -/

/-- What a message tells of the node, as a replay shows it. -/
def nodeRow (pb : Protobuf E) (num : NodeNum) (variant : FromRadioVariant E) : Option NodeInfo :=
  ((nodeIn pb variant).filter fun node => node.num = num).map (knownNodeInfo num)

theorem nodeRow_num {info : NodeInfo} (h : nodeRow pb num variant = some info) :
    info.num = num := by
  obtain ⟨node, -, rfl⟩ := Option.map_eq_some_iff.mp h
  rfl

theorem nodeRow_other {info : NodeInfo} (h : info.num ≠ num) :
    nodeRow pb num (.nodeInfo info) = none := by
  have hne : (cachedNodeInfo info).num ≠ num := h
  simp [nodeRow, nodeIn, hne]

/-- What a replay shows of a node tells just that of it. -/
theorem nodeRow_knownNode (hn : Named node) :
    nodeRow pb num (.nodeInfo (knownNodeInfo num node)) = some (knownNodeInfo num node) := by
  have hrow : nodeRow pb num (.nodeInfo (knownNodeInfo num node)) =
      some (shownFor (knownNodeInfo num node)) := by
    rw [← knownNodeInfo_cachedNodeInfo]
    have hnum : (cachedNodeInfo (knownNodeInfo num node)).num = num := rfl
    simp only [nodeRow, nodeIn, Option.filter_some, hnum, decide_true, if_true, Option.map_some]
    rfl
  have hid : orElse node.user.id (nodeId num) = node.user.id := if_neg hn.id
  have hlong : orElse node.user.longName "Unknown" = node.user.longName := if_neg hn.longName
  have hshort : orElse node.user.shortName "????" = node.user.shortName := if_neg hn.shortName
  rw [hrow, Option.some_inj]
  unfold shownFor knownNodeInfo rebuildNode
  simp only [Option.getD_some, hid, hlong, hshort]

theorem Holds.nodeRow_none {type : EntryType} (h : Holds type variant) (hown : type ≠ .ownNodeInfo)
    (hnode : type ≠ .nodeInfo) : nodeRow pb num variant = none := by
  cases h with
  | ownNodeInfo => exact absurd rfl hown
  | nodeInfo => exact absurd rfl hnode
  | _ => rfl

/-! ## Where a replay stands -/

/-- What a replay still has of the node is known of it, and the node is still to be sent or
has been told of. -/
def Phase.shows (num : NodeNum) (cache : StateCache) (told full : Prop) : Phase → Prop
  | .knownNode rest sent => (∀ node, (num, node) ∈ rest → known cache num = some node) ∧
      ((∃ node, (num, node) ∈ rest) ∨ told ∧ sent ≠ 0)
  | .syntheticNode rest => rest = [] ∧ (full → told)
  | .configComplete => full → told
  | _ => True

theorem Phase.shows.mono (h : phase.shows num cache told full) (ht : told → told') :
    phase.shows num cache told' full := by
  cases phase with
  | knownNode rest sent => exact ⟨h.1, h.2.imp_right fun ⟨hold, hsent⟩ => ⟨ht hold, hsent⟩⟩
  | syntheticNode rest => exact ⟨h.1, fun hfull => ht (h.2 hfull)⟩
  | configComplete => exact fun hfull => ht (h hfull)
  | _ => trivial

/-- What a replay has told of the node, which is not its own. -/
structure NodeStands (pb : Protobuf E) (num : NodeNum) (w : World) (t : List NodeInfo)
    (r : Replay) : Prop where
  other : r.nodeNum ≠ num
  proper : Proper pb r.phase
  shows : r.phase.shows num w.env.cache (Told NodeInfo.num t num) (r.configId ≠ nonceOnlyConfig)

/-- A node, for a server that knows it. -/
def nodeView (pb : Protobuf E) (num : NodeNum) : View E NodeInfo NodeNum where
  tells := nodeRow pb num
  key := NodeInfo.num
  current cache k := if k = num then (known cache num).map (knownNodeInfo num) else none
  Fit w := Captured pb w.env.capture ∧ Filled pb w.env.cache ∧
    known w.env.cache num ≠ none ∧ (Replay.new w.myNodeNum 0).nodeNum ≠ num
  Stands := NodeStands pb num
  Covers _ t := Told NodeInfo.num t num
  full nonce := nonce ≠ nonceOnlyConfig

theorem NodeStands.mono {t' : List NodeInfo} (h : NodeStands pb num w t r) (hsub : t ⊆ t') :
    NodeStands pb num w t' r :=
  ⟨h.other, h.proper, h.shows.mono fun ht => ht.mono hsub⟩

theorem NodeStands.skips (hrt : pb.FromRadioRoundTrip) (hnum : num ≠ broadcastNum)
    (hfit : (nodeView pb num).Fit w) (hs : Skips pb w.env r r') (h : NodeStands pb num w t r) :
    NodeStands pb num w t r' := by
  obtain ⟨hcaptured, hfilled, hknown, -⟩ := hfit
  obtain ⟨hother, hproper, hshows⟩ := h
  have hproper' := hs.proper (typed_captured hrt hcaptured) hproper
  have htaken : (Phase.knownNode (sortedNodes w.env.cache) 0).shows num w.env.cache
      (Told NodeInfo.num t num) (r.configId ≠ nonceOnlyConfig) := by
    obtain ⟨node, hnode⟩ := Option.ne_none_iff_exists'.mp hknown
    exact ⟨fun node => (hfilled.mem_sortedNodes hnum).mp,
      .inl ⟨node, (hfilled.mem_sortedNodes hnum).mpr hnode⟩⟩
  cases hs with
  | nodesOnly | nodes => exact ⟨hother, hproper', htaken⟩
  | channels | noChannel | configs => exact ⟨hother, hproper', trivial⟩
  | configOnly hp hid => exact ⟨hother, hproper', rfl, fun hfull => absurd hid hfull⟩
  | @noNode sent hp =>
    rw [hp] at hshows
    obtain ⟨-, ⟨node, hmem⟩ | ⟨htold, hsent⟩⟩ := hshows
    · cases hmem
    · exact ⟨hother, hproper', if_neg hsent, fun _ => htold⟩
  | unparsed hl hp | tooLarge hl hp =>
    rw [hp] at hshows
    cases hl with
    | channel | config => exact ⟨hother, hproper', trivial⟩
    | node => cases hshows.1

theorem NodeStands.emits (hrt : pb.FromRadioRoundTrip) (hfit : (nodeView pb num).Fit w)
    (hem : Emits pb w.env r variant phase) (h : NodeStands pb num w t r) :
    NodeStands pb num w (t ++ (nodeRow pb num variant).toList) (r.wrote phase) ∧
      ∀ info, nodeRow pb num variant = some info →
        (known w.env.cache num).map (knownNodeInfo num) = some info := by
  obtain ⟨hcaptured, hfilled, -, -⟩ := hfit
  have hproper' := hem.proper h.proper
  have hsilent (hnone : nodeRow pb num variant = none)
      (hstands : NodeStands pb num w t (r.wrote phase)) :
      NodeStands pb num w (t ++ (nodeRow pb num variant).toList) (r.wrote phase) ∧
        ∀ info, nodeRow pb num variant = some info →
          (known w.env.cache num).map (knownNodeInfo num) = some info := by
    rw [hnone]
    refine ⟨hstands.mono (List.subset_append_left _ _), ?_⟩
    intro info hinfo
    cases hinfo
  obtain ⟨hother, hproper, hshows⟩ := h
  cases hem with
  | own hs =>
    cases hs with
    | myInfo => exact hsilent rfl ⟨hother, hproper', trivial⟩
    | ownFirst | ownNodeInfo =>
      refine hsilent (nodeRow_other ?_) ⟨hother, hproper', trivial⟩
      rwa [ownNodeInfo_num]
    | metadata hp hid hm =>
      obtain ⟨md, hmd⟩ := metadataMessage_typed (typed_captured hrt hcaptured)
      rw [hmd] at hm
      cases hm
      exact hsilent rfl ⟨hother, hproper', trivial⟩
    | channel => exact hsilent rfl ⟨hother, hproper', trivial⟩
    | @knownNode n node rest sent hp =>
      rw [hp] at hshows
      obtain ⟨hold, hpending⟩ := hshows
      have hrest (node : CachedNode) (hmem : (num, node) ∈ rest) :
          known w.env.cache num = some node := hold node (List.mem_cons_of_mem _ hmem)
      by_cases hn : n = num
      · subst hn
        have hnode : known w.env.cache n = some node := hold node List.mem_cons_self
        rw [nodeRow_knownNode (hfilled.named hnode)]
        refine ⟨⟨hother, hproper', hrest, .inr ⟨.concat rfl, Nat.succ_ne_zero sent⟩⟩, ?_⟩
        intro info hinfo
        cases hinfo
        rw [hnode]
        rfl
      · refine hsilent (nodeRow_other hn) ⟨hother, hproper', hrest, ?_⟩
        refine hpending.imp ?_ ?_
        · intro ⟨node', hmem⟩
          refine ⟨node', (List.mem_cons.mp hmem).resolve_left ?_⟩
          intro heq
          exact hn (congrArg Prod.fst heq).symm
        · exact fun ⟨htold, _⟩ => ⟨htold, Nat.succ_ne_zero sent⟩
    | configComplete hp =>
      rw [hp] at hshows
      exact hsilent rfl ⟨hother, hproper', hshows.2⟩
  | @captured phase entry rest fr hl hp hfr =>
    rw [hp] at hproper hshows
    obtain ⟨hholds, -, hown, hnode⟩ := hproper.head hl hfr
    cases hl with
    | channel | config =>
      refine hsilent (hholds.nodeRow_none hown ?_) ⟨hother, hproper', trivial⟩
      intro htype
      cases congrFun (hnode htype) []
    | node => cases hshows.1

/-- Behind its last message a replay that tells of nodes has told of the node. -/
theorem NodeStands.completes (hrt : pb.FromRadioRoundTrip) (hfit : (nodeView pb num).Fit w)
    {nonce : UInt32} (hem : Emits pb w.env r (.configCompleteId nonce) phase)
    (h : NodeStands pb num w t r) (hfull : nonce ≠ nonceOnlyConfig) : Told NodeInfo.num t num := by
  obtain ⟨hp, rfl⟩ := hem.configCompleteId (typed_captured hrt hfit.1) h.proper
  have hshows := h.shows
  rw [hp] at hshows
  exact hshows.2 hfull

theorem nodeView_lawful (hrt : pb.FromRadioRoundTrip) (hnum : num ≠ broadcastNum) :
    (nodeView pb num).Lawful pb where
  answer h := by
    cases h with
    | queueStatus => rfl
    | @ack packet hport =>
      have hne : packet.portnum ≠ nodeinfoApp := by
        rw [hport]
        decide
      show nodeRow pb num (.packet packet) = none
      simp [nodeRow, nodeIn, hne]
  mono h hsub := NodeStands.mono h hsub
  covers_mono h hsub := Told.mono h hsub
  start _ hfit := ⟨hfit.2.2.2, trivial, trivial⟩
  ack _ h := ⟨h.other, h.proper, h.shows⟩
  skips hfit hs h := NodeStands.skips hrt hnum hfit hs h
  current hfit hem h info hinfo := by
    show (if info.num = num then _ else none) = some info
    rw [if_pos (nodeRow_num hinfo)]
    exact (NodeStands.emits hrt hfit hem h).2 info hinfo
  emits hfit hem h := (NodeStands.emits hrt hfit hem h).1
  completes hfit hem h hfull := NodeStands.completes hrt hfit hem h hfull

end Multiplextashtic.ConfigReplay

namespace Multiplextashtic.Server
open Multiplextashtic.Protocol Multiplextashtic.Messages Multiplextashtic.Config
open Multiplextashtic.Cache Multiplextashtic.ConfigReplay Multiplextashtic.Client
open Replica Run Table Extractor

variable {E : Type} {pb : Protobuf E} {s s' : TCPServer E} {w w' : World} {h : ClientHandler E}
  {e : Event} {cid : Nat} {num : NodeNum}

/-! ## The node is told of -/

/-- A replay has the node among those it has taken down and not sent. -/
def Standing.ahead (num : NodeNum) : Standing → Bool
  | .waiting r =>
    match r.phase with
    | .knownNode rest _ => rest.any fun n => n.1 = num
    | _ => false
  | _ => false

/-- A replay to the client still has the node to send, as it was taken down. -/
def Ahead (num : NodeNum) (h : ClientHandler E) : Prop :=
  ∃ source, Standing.ahead num (standing h source) = true

instance (h : ClientHandler E) : Decidable (Ahead num h) := by
  refine decidable_of_iff ((Standing.ahead num h.read.standing ||
    h.refreshes.any fun task => Standing.ahead num task.standing) = true) ?_
  rw [Bool.or_eq_true, List.any_eq_true]
  constructor
  · intro hahead
    rcases hahead with hread | ⟨task, hmem, htask⟩
    · exact ⟨.request, hread⟩
    · obtain ⟨i, hi⟩ := List.mem_iff_getElem?.mp hmem
      refine ⟨.refresh i, ?_⟩
      rw [standing, hi]
      exact htask
  · intro ⟨source, hsource⟩
    cases source with
    | request => exact .inl hsource
    | refresh i =>
      rw [standing] at hsource
      cases hi : h.refreshes[i]? with
      | none =>
        rw [hi] at hsource
        cases hsource
      | some task =>
        rw [hi] at hsource
        exact .inr ⟨task, List.mem_of_getElem? hi, hsource⟩
    | _ => cases hsource

/-- The node stays as it is known, or is told of when no replay has it before itself. -/
theorem node_moves (hfit : (nodeView pb num).Fit w) (hc : Captured pb w'.env.capture)
    (hfilled : Filled pb w'.env.cache) (hother : (Replay.new w'.myNodeNum 0).nodeNum ≠ num)
    (row : Option CachedNode) (hnodes : w'.env.cache.knownNodes =
      row.elim w.env.cache.knownNodes fun node => write Prod.fst node.row w.env.cache.knownNodes)
    (hahead : (row.filter fun node => node.num = num) ≠ none → ¬ Ahead num h) :
    Moves (nodeView pb num) h w w'
      ((row.filter fun node => node.num = num).map (knownNodeInfo num)).toList := by
  obtain ⟨-, -, hknown, -⟩ := hfit
  generalize htold : (row.filter fun node => node.num = num) = told at *
  have hnow : known w'.env.cache num = told.or (known w.env.cache num) := by
    rw [← htold, known, hnodes]
    cases row with
    | none => rfl
    | some node =>
      rw [Option.elim_some, get_write]
      by_cases hn : node.num = num
      · have hrow : node.row.1 = num := hn
        rw [if_pos hrow, Option.filter_some, if_pos (decide_eq_true hn)]
        rfl
      · have hrow : node.row.1 ≠ num := hn
        rw [if_neg hrow, Option.filter_some, if_neg (by simpa using hn)]
        rfl
  have hmore {t : List NodeInfo} (ht : Told NodeInfo.num t num) :
      Told NodeInfo.num (t ++ (told.map (knownNodeInfo num)).toList) num :=
    ht.mono (List.subset_append_left _ _)
  refine ⟨⟨hc, hfilled, ?_, hother⟩, ?_, ?_, ?_⟩
  · rw [hnow]
    cases told with
    | none => exact hknown
    | some node => exact Option.some_ne_none node
  · intro k
    show (if k = num then (known w'.env.cache num).map (knownNodeInfo num) else none) =
      (lastOf NodeInfo.num (told.map (knownNodeInfo num)).toList k).or
        (if k = num then (known w.env.cache num).map (knownNodeInfo num) else none)
    rw [hnow]
    by_cases hk : k = num
    · subst hk
      rw [if_pos rfl, if_pos rfl]
      cases told with
      | none => rfl
      | some node =>
        have hkey : (knownNodeInfo k node).num = k := rfl
        rw [Option.map_some, Option.toList_some, lastOf_singleton, if_pos hkey]
        rfl
    · rw [if_neg hk, if_neg hk]
      cases told with
      | none => rfl
      | some node =>
        have hkey : (knownNodeInfo num node).num ≠ k := Ne.symm hk
        rw [Option.map_some, Option.toList_some, lastOf_singleton, if_neg hkey]
        rfl
  · intro t source r hr hstands
    refine ⟨hstands.other, hstands.proper, ?_⟩
    have hshows := hstands.shows.mono hmore
    cases hp : r.phase with
    | knownNode rest sent =>
      rw [hp] at hshows
      refine ⟨?_, hshows.2⟩
      intro node hmem
      rw [hnow]
      cases told with
      | none => exact hshows.1 node hmem
      | some node' =>
        refine absurd ⟨source, ?_⟩ (hahead (Option.some_ne_none _))
        rw [hr, Standing.ahead, hp]
        exact List.any_eq_true.mpr ⟨_, hmem, decide_eq_true rfl⟩
    | _ =>
      rw [hp] at hshows
      exact hshows
  · exact fun t ht => hmore ht

/-! ## Runs in which the client is not overtaken -/

/-- A step that leaves the client knowing the node as the server does: no client sends in the
node's name, the physical node does not take its number, and what is told of the node finds
no replay that has it still to send to the client. -/
structure Calm (pb : Protobuf E) (num : NodeNum) (cid : Nat) (s : TCPServer E) (e : Event) :
    Prop where
  echo : ∀ f ∈ forwarded pb s e,
    nodeRow pb num (.packet (echoPacket s.phys.myNodeNum f.2.packet)) = none
  other : ∀ payload ∈ arrived s e, ∀ info ∈ infoIn pb payload,
    (Replay.new info.myNodeNum 0).nodeNum ≠ num
  ahead : ∀ data ∈ handed pb s e, (nodeView pb num).told pb [data] ≠ [] →
    ∀ h ∈ s.handlers[cid]?, ¬ Ahead num h

instance (s : TCPServer E) (e : Event) : Decidable (Calm pb num cid s e) :=
  decidable_of_iff
    ((∀ f ∈ forwarded pb s e,
        nodeRow pb num (.packet (echoPacket s.phys.myNodeNum f.2.packet)) = none) ∧
      (∀ payload ∈ arrived s e, ∀ info ∈ infoIn pb payload,
        (Replay.new info.myNodeNum 0).nodeNum ≠ num) ∧
      ∀ data ∈ handed pb s e, (nodeView pb num).told pb [data] ≠ [] →
        ∀ h ∈ s.handlers[cid]?, ¬ Ahead num h)
    ⟨fun ⟨hecho, hother, hahead⟩ => ⟨hecho, hother, hahead⟩,
      fun hcalm => ⟨hcalm.echo, hcalm.other, hcalm.ahead⟩⟩

theorem maybeCaptureMyInfo_num (phys : PhysicalNode) (payload : Bytes) :
    (maybeCaptureMyInfo pb phys payload).myNodeNum =
      (infoIn pb payload).elim phys.myNodeNum MyNodeInfo.myNodeNum := by
  unfold maybeCaptureMyInfo infoIn
  cases pb.parseFromRadio payload with
  | none => rfl
  | some fr =>
    obtain ⟨id, variant⟩ := fr
    cases variant <;> rfl

/-- The physical node becomes another only by what it tells of itself. -/
theorem Calm.step_other (hcalm : Calm pb num cid s e) (hs : step pb s e = some s')
    (hother : (Replay.new (world s).myNodeNum 0).nodeNum ≠ num) :
    (Replay.new (world s').myNodeNum 0).nodeNum ≠ num := by
  cases step_stepped hs with
  | @client c ce h0 h1 f => cases f <;> exact hother
  | @radio payload hlen =>
    show (Replay.new (maybeCaptureMyInfo pb s.phys payload).myNodeNum 0).nodeNum ≠ num
    rw [maybeCaptureMyInfo_num]
    cases hinfo : infoIn pb payload with
    | none => exact hother
    | some info => exact hcalm.other payload rfl info hinfo
  | _ => exact hother

theorem nodeView_followed (pb : Protobuf E) (num : NodeNum) (cid : Nat) :
    Followed (nodeView pb num) pb cid (Calm pb num cid) where
  echo hcalm hforwarded := hcalm.echo _ hforwarded
  moves := by
    intro s s' e h hcalm hclient hs hh hfit
    have hc : Captured pb s'.capture := captured_step hfit.1 hs
    have hother := hcalm.step_other hs hfit.2.2.2
    rcases world_step hs hclient with ⟨payload, rest, rfl, hq, hworld⟩ | ⟨hnone, -, hnodes⟩
    · have hrow : (messageOf pb (.payload payload)).bind (nodeView pb num).tells =
          ((nodeTold pb (.payload payload)).filter fun node => node.num = num).map
            (knownNodeInfo num) := by
        rw [nodeTold]
        cases messageOf pb (.payload payload) <;> rfl
      have hcache : s'.cache = update pb s.cache (.payload payload) :=
        congrArg Env.cache hworld
      have hahead : ((nodeTold pb (.payload payload)).filter fun node => node.num = num) ≠ none →
          ¬ Ahead num h := by
        intro htold
        have hrows := @handedRows_payload E pb s _ _ (nodeView pb num) _ _ hq
        rw [hrow, handedRows] at hrows
        obtain ⟨node, hnode⟩ := Option.ne_none_iff_exists'.mp htold
        rw [hnode] at hrows
        cases hd : handed pb s .processIncoming with
        | none =>
          rw [hd] at hrows
          cases hrows
        | some data =>
          rw [hd] at hrows
          refine hcalm.ahead data hd ?_ h hh
          intro hnil
          exact List.cons_ne_nil _ _ (hrows.symm.trans hnil)
      rw [handedRows_payload _ hq, hrow]
      refine node_moves hfit hc ?_ hother _ ?_ hahead
      · show Filled pb s'.cache
        rw [hcache]
        exact hfit.2.1.updated _
      · show s'.cache.knownNodes = _
        rw [hcache, update_knownNodes]
        rfl
    · rw [handedRows, hnone]
      refine node_moves hfit hc ?_ hother none hnodes (absurd rfl)
      obtain ⟨us, hus⟩ := hfit.2.1
      exact ⟨us, hnodes.trans hus⟩

/-! ## What the client knows -/

/-- A node as a replay shows it. -/
def shownNode (cache : StateCache) (num : NodeNum) : Option NodeInfo :=
  (known cache num).map (knownNodeInfo num)

theorem shownNode_clientCache (pb : Protobuf E) (num : NodeNum) (ws : List Bytes) :
    shownNode (clientCache pb ws) num = lastOf NodeInfo.num ((nodeView pb num).told pb ws) num := by
  have htold : (nodeView pb num).told pb ws =
      ((nodesTold pb (ws.map .payload)).filter fun node => node.num = num).map
        (knownNodeInfo num) := by
    rw [View.told, received, nodesTold, List.filterMap_map, List.filterMap_filterMap,
      List.filter_filterMap, List.map_filterMap]
    refine List.filterMap_congr ?_
    intro data _
    rw [Function.comp_apply, nodeTold, messageOf]
    cases pb.parseFromRadio data <;> rfl
  have hrow (node : CachedNode) (_ : node.num = num) : (knownNodeInfo num node).num = num := rfl
  rw [htold, lastOf_filter hrow, shownNode, clientCache_eq, known, get_knownNodes,
    Option.map_map, Option.map_map]
  rfl

/-- **What a client is shown of the node** is what the server has of it, from the first
replay on that tells of nodes. -/
theorem viewed_node (hview : Viewed pb (nodeView pb num) w h) :
    (∀ info, shownNode (clientCache pb (feed h)) num = some info →
        shownNode w.env.cache num = some info) ∧
      ((∃ nonce, Configured pb h nonce ∧ nonce ≠ nonceOnlyConfig) →
        shownNode (clientCache pb (feed h)) num = shownNode w.env.cache num) := by
  have hcurrent : (nodeView pb num).current w.env.cache num = shownNode w.env.cache num :=
    if_pos rfl
  rw [shownNode_clientCache, ← hcurrent]
  refine ⟨hview.agrees num, ?_⟩
  intro ⟨nonce, hconfigured, hfull⟩
  exact (hview.agrees num).eq fun _ _ => hview.covers nonce hconfigured hfull

/-- **A client knows of a node what the server does**, if it connects when the node is known
and all steps are calm from then on. The server still knows the node. What the client takes of
it from what has been written and waits in its queue is what the server has; and the client
has the node once a replay that tells of nodes has told it that its configuration is
complete. -/
theorem run_nodes (hrt : pb.FromRadioRoundTrip) {config : AppConfig} {before after : List Event}
    {peerIp : String} (hnum : num ≠ broadcastNum)
    (hbefore : run (step pb) (init config) before = some s)
    (hr : run (step pb) s (.connect peerIp :: after) = some s')
    (hknown : known s.cache num ≠ none) (hother : (Replay.new s.phys.myNodeNum 0).nodeNum ≠ num)
    (hcalm : Along (step pb) (Calm pb num s.handlers.length) (connect s peerIp) after)
    (hstay : s.handlers.length ∈ s'.registry) :
    shownNode s'.cache num ≠ none ∧
    ∃ h, s'.handlers[s.handlers.length]? = some h ∧
      drain frames (output h) = (h.written.map Prod.snd, []) ∧
      (∀ info, shownNode (clientCache pb (h.written.map Prod.snd ++ h.queue)) num = some info →
        shownNode s'.cache num = some info) ∧
      ((∃ nonce, Configured pb h nonce ∧ nonce ≠ nonceOnlyConfig) →
        shownNode (clientCache pb (h.written.map Prod.snd ++ h.queue)) num =
          shownNode s'.cache num) := by
  have hregistered : Registered s :=
    invariant (fun s e t hreg => hreg.step) ⟨List.nodup_nil, List.forall_mem_nil _⟩ hbefore
  have hfilled : Filled pb s.cache := ⟨_, congrArg StateCache.knownNodes (run_cache _ _ hbefore)⟩
  have hfit : (nodeView pb num).Fit (world s) :=
    ⟨run_capture config _ hbefore, hfilled, hknown, hother⟩
  obtain ⟨⟨-, -, hstillKnown, -⟩, h, hh, hview⟩ :=
    run_viewed hrt (nodeView_lawful hrt hnum) (nodeView_followed pb num _) hregistered
      (run_readFits hbefore) hfit hr hcalm hstay
  obtain ⟨hagrees, hall⟩ := viewed_node hview
  have hwhole := run_append.mpr ⟨_, hbefore, hr⟩
  have hshown : shownNode s'.cache num ≠ none :=
    fun hnone => hstillKnown (Option.map_eq_none_iff.mp hnone)
  exact ⟨hshown, h, hh, run_decodes config hwhole (List.mem_of_getElem? hh), hagrees, hall⟩

/-- The server knows a node. -/
def nodeKnown : List Event := [.radio (nodePayload favouriteNode), .processIncoming]

/-- A client asks for the nodes. The node tells of its user when the replay has sent it, and
the client's write task has not come to that. -/
def nodeChanged : List Event :=
  [.client 0 (.payload (wire.serializeToRadio (.wantConfigId 69421)) 100),
    .client 0 (.resumeRead false), .radio userPayload, .processIncoming,
    .client 0 (.resumeRead false)]

/-- What the client has been written tells of a favourite, its queue of none. -/
theorem run_nodes_changed : ∃ s s' h, run (step wire) (init {}) nodeKnown = some s ∧
    run (step wire) s (.connect "192.168.1.50" :: nodeChanged) = some s' ∧
    s'.handlers[0]? = some h ∧
    shownNode (clientCache wire (h.written.map Prod.snd ++ h.queue)) 5 = shownNode s'.cache 5 ∧
    shownNode (clientCache wire (h.written.map Prod.snd)) 5 ≠ shownNode s'.cache 5 := by
  have hbefore : (run (step wire) (init {}) nodeKnown).map (fun s =>
      (s.handlers.length, (known s.cache 5).isSome, (Replay.new s.phys.myNodeNum 0).nodeNum)) =
        some (0, true, fallbackNodeNum) := by decide +kernel
  have hcalm : (run (step wire) (init {}) nodeKnown).all (fun s => decide
      (Along (step wire) (Calm wire 5 0) (connect s "192.168.1.50") nodeChanged)) = true := by
    decide +kernel
  have hafter : (run (step wire) (init {})
      (nodeKnown ++ .connect "192.168.1.50" :: nodeChanged)).map (fun s' =>
        (s'.registry, (shownNode s'.cache 5).map telemetry, s'.handlers[0]?.map fun h =>
          (shownNode (clientCache wire (h.written.map Prod.snd)) 5).map telemetry)) =
      some ([0], some noTelemetry, some (some (telemetry favouriteNode))) := by decide +kernel
  have hlast : (run (step wire) (init {})
      (nodeKnown ++ .connect "192.168.1.50" :: nodeChanged)).map (fun s' =>
        s'.handlers[0]?.bind fun h =>
          h.written.getLast?.map fun e => (e.1, announcement wire e.2)) =
      some (some (.request, some 69421)) := by decide +kernel
  rw [Option.map_eq_some_iff] at hbefore hafter
  obtain ⟨s, hs, hknows⟩ := hbefore
  obtain ⟨s', hs', hthen⟩ := hafter
  obtain ⟨u, hu, hr⟩ := run_append.mp hs'
  cases hs.symm.trans hu
  rw [Prod.mk.injEq, Prod.mk.injEq] at hknows hthen
  obtain ⟨hlength, hknown, hown⟩ := hknows
  obtain ⟨hregistry, hshown, hwritten⟩ := hthen
  rw [hs', Option.map_some, Option.some_inj] at hlast
  rw [hs, Option.all_some, decide_eq_true_eq] at hcalm
  have hne : known s.cache 5 ≠ none := Option.isSome_iff_ne_none.mp hknown
  have hother : (Replay.new s.phys.myNodeNum 0).nodeNum ≠ 5 := by
    rw [hown]
    decide
  have hstay : s.handlers.length ∈ s'.registry := by
    rw [hlength, hregistry]
    exact List.mem_singleton_self 0
  obtain ⟨-, h, hh, -, -, hall⟩ := run_nodes wire_fromRadioRoundTrip (by decide) hs hr hne hother
    (hlength.symm ▸ hcalm) hstay
  rw [hlength] at hh
  rw [hh, Option.map_some, Option.some_inj] at hwritten
  rw [hh, Option.bind_some] at hlast
  obtain ⟨e, he, hpair⟩ := Option.map_eq_some_iff.mp hlast
  rw [Prod.mk.injEq] at hpair
  have hconfigured : Configured wire h 69421 :=
    ⟨e, List.mem_of_getLast? he, by rw [hpair.1]; rfl, hpair.2⟩
  refine ⟨s, s', h, hs, hr, hh, hall ⟨69421, hconfigured, by decide⟩, ?_⟩
  intro heq
  rw [heq, hshown, Option.some_inj] at hwritten
  exact absurd hwritten (by decide)

/-- The node tells of its user when the replay has taken it down and not sent it, and the
write task is the first to write. -/
def nodeOvertaken : List Event :=
  [.radio (nodePayload { favouriteNode with num := 4 }), .radio (nodePayload favouriteNode),
    .processIncoming, .processIncoming, .connect "192.168.1.50",
    .client 0 (.payload (wire.serializeToRadio (.wantConfigId 69421)) 100),
    .client 0 (.resumeRead false), .radio userPayload, .processIncoming, .client 0 .writeNext,
    .client 0 (.resumeRead false), .client 0 (.resumeRead false)]

/-- The client is left with a favourite that the server does not have. -/
example : (run (step wire) (init {}) nodeOvertaken).map (fun s =>
    ((shownNode s.cache 5).map telemetry, s.handlers.map fun h =>
      (h.queue, (shownNode (clientCache wire (h.written.map Prod.snd)) 5).map telemetry))) =
    some (some noTelemetry, [([], some (telemetry favouriteNode))]) := by decide +kernel

end Multiplextashtic.Server

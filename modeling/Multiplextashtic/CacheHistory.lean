import Multiplextashtic.ChannelTable
import Multiplextashtic.Server

/-! # What the cache remembers

The cache as the outcome of all it has been told. Its known nodes and its
channels are keyed tables: each holds what was told last of a number or an
index. The caches of the server's runs are such outcomes. -/
namespace Multiplextashtic.Cache
open Multiplextashtic.Protocol Multiplextashtic.Messages Table

variable {E : Type} {pb : Protobuf E} {cache : StateCache}

/-! ## Updates -/

/-- A payload of the physical node, or its `my_info` at a (re)connect. -/
inductive CacheUpdate where
  | payload (fromRadioBytes : Bytes)
  | myInfo (info : CachedMyInfo)
  deriving DecidableEq, Repr

section
variable (pb : Protobuf E)

def update (cache : StateCache) : CacheUpdate → StateCache
  | .payload fromRadioBytes => updateCache pb cache fromRadioBytes
  | .myInfo info => updateMyInfo cache info

def cacheAfter (us : List CacheUpdate) : StateCache := us.foldl (update pb) {}

def messageOf : CacheUpdate → Option (FromRadioVariant E)
  | .payload fromRadioBytes => (pb.parseFromRadio fromRadioBytes).map (·.variant)
  | .myInfo _ => none

/-- The node a message tells of. -/
def nodeIn : FromRadioVariant E → Option CachedNode
  | .nodeInfo ni => some (cachedNodeInfo ni)
  | .packet packet =>
    if packet.portnum = nodeinfoApp then
      (pb.parseUser packet.payload).bind fun user =>
        if user.id = "" then none else some (packetNodeInfo packet user)
    else none
  | _ => none

def channelIn : FromRadioVariant E → Option Channel
  | .channel ch => some ch
  | _ => none

def nodeTold (u : CacheUpdate) : Option CachedNode := (messageOf pb u).bind (nodeIn pb)

def channelTold (u : CacheUpdate) : Option Channel := (messageOf pb u).bind channelIn

end

/-- A node is told of by its NodeInfo, or by a packet of its user. -/
theorem nodeTold_cases {u : CacheUpdate} {node : CachedNode} (h : nodeTold pb u = some node) :
    (∃ info, messageOf pb u = some (.nodeInfo info) ∧ node = cachedNodeInfo info) ∨
      ∃ packet user,
        messageOf pb u = some (.packet packet) ∧ node = packetNodeInfo packet user := by
  obtain ⟨variant, hm, hn⟩ := Option.bind_eq_some_iff.mp h
  cases variant with
  | nodeInfo info =>
    cases hn
    exact .inl ⟨info, hm, rfl⟩
  | packet packet =>
    rw [nodeIn] at hn
    split at hn
    · obtain ⟨user, -, hn⟩ := Option.bind_eq_some_iff.mp hn
      split at hn <;> cases hn
      exact .inr ⟨packet, user, hm, rfl⟩
    · cases hn
  | _ => cases hn

/-- What an update does. -/
inductive Updated (pb : Protobuf E) (cache : StateCache) (u : CacheUpdate) : StateCache → Prop
  | node {node : CachedNode} : nodeTold pb u = some node → channelTold pb u = none →
      Updated pb cache u (noteNode cache node)
  | channel {ch : Channel} : nodeTold pb u = none → channelTold pb u = some ch →
      Updated pb cache u (updateChannel cache (cachedChannel ch))
  | myInfo {info : CachedMyInfo} : u = .myInfo info → Updated pb cache u (updateMyInfo cache info)
  | ignored {fromRadioBytes : Bytes} : u = .payload fromRadioBytes → nodeTold pb u = none →
      channelTold pb u = none → Updated pb cache u cache

theorem update_updated (pb : Protobuf E) (cache : StateCache) (u : CacheUpdate) :
    Updated pb cache u (update pb cache u) := by
  cases u with
  | myInfo info => exact .myInfo rfl
  | payload bytes =>
    show Updated pb cache _ (updateCache pb cache bytes)
    unfold updateCache
    cases hp : pb.parseFromRadio bytes with
    | none =>
      have hnone : messageOf pb (.payload bytes) = none := by rw [messageOf, hp]; rfl
      exact .ignored rfl (by rw [nodeTold, hnone]; rfl) (by rw [channelTold, hnone]; rfl)
    | some fr =>
      obtain ⟨id, variant⟩ := fr
      have hmessage : messageOf pb (.payload bytes) = some variant := by rw [messageOf, hp]; rfl
      have hnode : nodeTold pb (.payload bytes) = nodeIn pb variant := by
        rw [nodeTold, hmessage]; rfl
      have hchannel : channelTold pb (.payload bytes) = channelIn variant := by
        rw [channelTold, hmessage]; rfl
      cases variant with
      | packet packet =>
        simp only
        by_cases hport : packet.portnum = nodeinfoApp
        · rw [if_pos hport]
          rw [nodeIn, if_pos hport] at hnode
          cases huser : pb.parseUser packet.payload with
          | none => exact .ignored rfl (by rw [hnode, huser]; rfl) hchannel
          | some user =>
            rw [huser, Option.bind_some] at hnode
            simp only
            split
            · next hid => exact .ignored rfl (by rw [hnode, if_pos hid]) hchannel
            · next hid => exact .node (by rw [hnode, if_neg hid]) hchannel
        · rw [if_neg hport]
          rw [nodeIn, if_neg hport] at hnode
          exact .ignored rfl hnode hchannel
      | nodeInfo ni => exact .node hnode hchannel
      | channel ch => exact .channel hnode hchannel
      | _ => exact .ignored rfl hnode hchannel

/-! ## The known nodes -/

/-- A node as a row of the table. -/
def CachedNode.row (node : CachedNode) : NodeNum × CachedNode := (node.num, node)

theorem updateKnownNode_eq (cache : StateCache) (node : CachedNode) :
    updateKnownNode cache node =
      { cache with knownNodes := write Prod.fst node.row cache.knownNodes } := by
  have hp (e : NodeNum × CachedNode) : (e.1 == node.num) = true ↔ e.1 = node.row.1 := beq_iff_eq
  unfold updateKnownNode
  split
  · next i hi => rw [write_of_findIdx?_some hp hi]; rfl
  · next hi => rw [write_of_findIdx?_none hp hi]; rfl

theorem noteNode_eq (cache : StateCache) (node : CachedNode) : noteNode cache node =
    { cache with
      knownNodes := write Prod.fst node.row cache.knownNodes
      nodeInfo := if node.num = cache.myNodeNum then some node else cache.nodeInfo } := by
  unfold noteNode
  simp only [updateKnownNode_eq]
  split <;> rfl

theorem noteNode_knownNodes (cache : StateCache) (node : CachedNode) :
    (noteNode cache node).knownNodes = write Prod.fst node.row cache.knownNodes := by
  rw [noteNode_eq]

theorem update_knownNodes (pb : Protobuf E) (cache : StateCache) (u : CacheUpdate) :
    (update pb cache u).knownNodes = (nodeTold pb u).elim cache.knownNodes fun node =>
      write Prod.fst node.row cache.knownNodes := by
  have hu := update_updated pb cache u
  generalize update pb cache u = cache' at hu
  cases hu with
  | node hn => rw [hn, noteNode_knownNodes]; rfl
  | channel hn =>
    rw [hn, updateChannel_eq]
    rfl
  | myInfo hu => rw [hu]; rfl
  | ignored hu hn => rw [hn]; rfl

/-- What is known of a number: `known_nodes.get`. -/
def known (cache : StateCache) (num : NodeNum) : Option CachedNode :=
  (get Prod.fst cache.knownNodes num).map Prod.snd

theorem known_noteNode (cache : StateCache) (node : CachedNode) :
    known (noteNode cache node) node.num = some node := by
  rw [known, noteNode_knownNodes, get_write, if_pos]
  · rfl
  · rfl

/-- The nodes told of, in order. -/
def nodesTold (pb : Protobuf E) (us : List CacheUpdate) : List CachedNode :=
  us.filterMap (nodeTold pb)

theorem knownNodes_cacheAfter (pb : Protobuf E) (us : List CacheUpdate) :
    (cacheAfter pb us).knownNodes =
      ((nodesTold pb us).map CachedNode.row).foldl (fun t e => write Prod.fst e t) [] := by
  rw [nodesTold, List.foldl_map, List.foldl_filterMap]
  refine (List.foldl_hom StateCache.knownNodes ?_).symm
  intro c u
  rw [update_knownNodes]
  cases nodeTold pb u <;> rfl

theorem knownNodes_unique (pb : Protobuf E) (us : List CacheUpdate) :
    Unique Prod.fst (cacheAfter pb us).knownNodes := by
  rw [knownNodes_cacheAfter]
  exact Unique.foldl (fun _ _ => .refl _) (.nil _) _

theorem get_knownNodes (pb : Protobuf E) (us : List CacheUpdate) (num : NodeNum) :
    get Prod.fst (cacheAfter pb us).knownNodes num =
      (lastOf CachedNode.num (nodesTold pb us) num).map CachedNode.row := by
  rw [knownNodes_cacheAfter, get_foldl (fun _ _ => .refl _) (.nil _), lastOf_map]
  exact Option.or_none

/-- **A number is known as what was told of it last.** -/
theorem mem_knownNodes (pb : Protobuf E) (us : List CacheUpdate) (num : NodeNum)
    (node : CachedNode) : (num, node) ∈ (cacheAfter pb us).knownNodes ↔
      lastOf CachedNode.num (nodesTold pb us) num = some node := by
  have hget := get_eq_some_iff (knownNodes_unique pb us) (a := (num, node)) (k := num)
  rw [and_iff_left rfl, get_knownNodes, Option.map_eq_some_iff] at hget
  rw [← hget]
  constructor
  · rintro ⟨node', hlast, heq⟩
    cases heq
    exact hlast
  · intro hlast
    refine ⟨node, hlast, ?_⟩
    rw [CachedNode.row, key_of_get hlast]

/-! ## The channels -/

/-- The channels told of, in order. -/
def channelsTold (pb : Protobuf E) (us : List CacheUpdate) : List Channel :=
  us.filterMap (channelTold pb)

theorem update_channels (pb : Protobuf E) (cache : StateCache) (u : CacheUpdate) :
    (update pb cache u).channels = (channelTold pb u).elim cache.channels fun ch =>
      (updateChannel cache (cachedChannel ch)).channels := by
  have hu := update_updated pb cache u
  generalize update pb cache u = cache' at hu
  cases hu with
  | node _ hc =>
    rw [hc, noteNode_eq]
    rfl
  | channel _ hc => rw [hc]; rfl
  | myInfo hu => rw [hu]; rfl
  | ignored hu _ hc => rw [hc]; rfl

/-- The channels are those of the updates with what was told of channels. -/
theorem channels_cacheAfter (pb : Protobuf E) (us : List CacheUpdate) :
    (cacheAfter pb us).channels =
      (channelCache ((channelsTold pb us).map cachedChannel)).channels := by
  rw [channels_channelCache, channelsTold, List.foldl_map, List.foldl_filterMap]
  refine (List.foldl_hom StateCache.channels ?_).symm
  intro c u
  rw [update_channels]
  cases channelTold pb u with
  | none => rfl
  | some ch => exact (updateChannel_channels c (cachedChannel ch)).symm

/-- **An index has the channel that was told of it last.** -/
theorem mem_channels (pb : Protobuf E) (us : List CacheUpdate) (ch : CachedChannel) :
    ch ∈ (cacheAfter pb us).channels ↔
      (lastOf Channel.index (channelsTold pb us) ch.index).map cachedChannel = some ch := by
  rw [channels_cacheAfter, mem_channelCache, Latest, lastOf_map]
  rfl

/-- The channels stand in increasing order. -/
theorem channels_sorted (pb : Protobuf E) (us : List CacheUpdate) :
    (cacheAfter pb us).channels.Pairwise fun a b => a.index < b.index := by
  rw [channels_cacheAfter]
  exact channelCache_ordered _

/-! ## The own node -/

/-- What is cached of the own node was told just now, or was cached before. -/
theorem update_nodeInfo {u : CacheUpdate} {node : CachedNode}
    (h : (update pb cache u).nodeInfo = some node) :
    nodeTold pb u = some node ∨ cache.nodeInfo = some node := by
  have hu := update_updated pb cache u
  generalize update pb cache u = cache' at hu h
  cases hu with
  | node hn =>
    rw [noteNode_eq] at h
    simp only at h
    split at h
    · cases h
      exact .inl hn
    · exact .inr h
  | channel =>
    rw [updateChannel_eq] at h
    exact .inr h
  | myInfo | ignored => exact .inr h

end Multiplextashtic.Cache

namespace Multiplextashtic.Server
open Multiplextashtic.Protocol Multiplextashtic.Messages Multiplextashtic.Config
open Multiplextashtic.Cache Multiplextashtic.Capture Run

variable {E : Type} {pb : Protobuf E} {s s' : TCPServer E}

/-! ## The caches of the server's runs -/

/-- What a step tells the cache. -/
def cacheUpdate (s : TCPServer E) : Event → Option CacheUpdate
  | .processIncoming => s.phys.readQueue.head?.map .payload
  | .cacheMyInfo => s.phys.myInfo.map fun info => .myInfo (myInfoRecord info)
  | _ => none

theorem step_cache {e : Event} (hs : step pb s e = some s') :
    s'.cache = (cacheUpdate s e).elim s.cache (update pb s.cache) := by
  cases step_stepped hs with
  | @client cid ce h0 h1 f hh hc => cases f <;> rfl
  | dropped hq | broadcast hq =>
    simp only [cacheUpdate, hq]
    rfl
  | cacheMyInfo hinfo =>
    simp only [cacheUpdate, hinfo]
    rfl
  | _ => rfl

/-- **Every cache the server comes to is what it has been told.** -/
theorem run_cache (config : AppConfig) (es : List Event)
    (hr : run (step pb) (init config) es = some s) :
    s.cache = cacheAfter pb (outputs (step pb) cacheUpdate (init config) es) :=
  folded (fun _ _ _ => step_cache) hr

/-- Nothing was captured, or the defaults. -/
inductive Captured (pb : Protobuf E) : ConfigCapture → Prop
  | nothing : Captured pb {}
  | defaults (nodeNum : NodeNum) (syntheticNodes : Nat) (firmwareVersion : Option String) :
      Captured pb (captureDefaults pb nodeNum syntheticNodes firmwareVersion)

theorem run_capture (config : AppConfig) (es : List Event)
    (hr : run (step pb) (init config) es = some s) : Captured pb s.capture := by
  refine invariant (P := fun s : TCPServer E => Captured pb s.capture) ?_ .nothing hr
  intro s e s' hc hs
  cases step_stepped hs with
  | @client cid ce h0 h1 f hh hcs => cases f <;> exact hc
  | recapture syntheticNodes => exact .defaults ..
  | _ => exact hc

/-- What a replay finds in a server that has run. -/
def Reached (pb : Protobuf E) (env : ConfigReplay.Env) : Prop :=
  ∃ config es s, run (step pb) (init config) es = some s ∧ (world s).env = env

theorem Reached.unique {env : ConfigReplay.Env} (h : Reached pb env) :
    Table.Unique Prod.fst env.cache.knownNodes := by
  obtain ⟨config, es, s, hr, rfl⟩ := h
  show Table.Unique Prod.fst s.cache.knownNodes
  rw [run_cache config es hr]
  exact knownNodes_unique pb _

theorem Reached.captured {env : ConfigReplay.Env} (h : Reached pb env) :
    Captured pb env.capture := by
  obtain ⟨config, es, s, hr, rfl⟩ := h
  exact run_capture config es hr

end Multiplextashtic.Server

import Multiplextashtic.CacheHistory
import Multiplextashtic.WireMessages

/-! # When the own node is known

`_update_cache` takes a node for the own one when it has the number the cache has
at that time. The number comes with `update_my_info`, from another task than the
nodes, so nodes may have been told of before it; until then it is 0. -/
namespace Multiplextashtic.Cache
open Multiplextashtic.Protocol Multiplextashtic.Messages Table

variable {E : Type} {pb : Protobuf E} {cache : StateCache} {info : CachedMyInfo}

/-! ## Payloads -/

/-- The nodes the payloads tell of, in order. -/
def heard (pb : Protobuf E) (payloads : List Bytes) : List CachedNode :=
  nodesTold pb (payloads.map .payload)

/-- A payload leaves the own number, and is the own node's when it has that number. -/
theorem updateCache_own (pb : Protobuf E) (cache : StateCache) (payload : Bytes) :
    (updateCache pb cache payload).myNodeNum = cache.myNodeNum ∧
      (updateCache pb cache payload).myInfo = cache.myInfo ∧
      (updateCache pb cache payload).nodeInfo =
        (lastOf CachedNode.num (heard pb [payload]) cache.myNodeNum).or cache.nodeInfo := by
  have hu := update_updated pb cache (.payload payload)
  have hheard : heard pb [payload] = (nodeTold pb (.payload payload)).toList := by
    simp only [heard, nodesTold, List.map_singleton, List.filterMap_cons, List.filterMap_nil]
    cases nodeTold pb (.payload payload) <;> rfl
  change Updated pb cache _ (updateCache pb cache payload) at hu
  generalize updateCache pb cache payload = cache' at hu
  rw [hheard]
  cases hu with
  | @node node hn =>
    have hlast : lastOf CachedNode.num ([] ++ [node]) cache.myNodeNum =
        if node.num = cache.myNodeNum then some node else none := lastOf_concat
    rw [List.nil_append] at hlast
    rw [hn, Option.toList_some, hlast, noteNode_eq]
    refine ⟨rfl, rfl, ?_⟩
    simp only
    split <;> rfl
  | channel hn =>
    rw [hn, updateChannel_eq]
    exact ⟨rfl, rfl, rfl⟩
  | myInfo hu => cases hu
  | ignored _ hn =>
    rw [hn]
    exact ⟨rfl, rfl, rfl⟩

theorem heard_append (payloads more : List Bytes) :
    heard pb (payloads ++ more) = heard pb payloads ++ heard pb more := by
  simp [heard, nodesTold]

/-- The own node after the payloads is the last one told of with the own number. -/
theorem foldl_updateCache_own (pb : Protobuf E) (payloads : List Bytes) (cache : StateCache) :
    (payloads.foldl (updateCache pb) cache).myNodeNum = cache.myNodeNum ∧
      (payloads.foldl (updateCache pb) cache).myInfo = cache.myInfo ∧
      (payloads.foldl (updateCache pb) cache).nodeInfo =
        (lastOf CachedNode.num (heard pb payloads) cache.myNodeNum).or cache.nodeInfo := by
  induction payloads using List.reverseRecOn with
  | nil => exact ⟨rfl, rfl, rfl⟩
  | append_singleton payloads payload ih =>
    obtain ⟨hnum, hinfo, hnode⟩ := ih
    obtain ⟨hnum', hinfo', hnode'⟩ :=
      updateCache_own pb (payloads.foldl (updateCache pb) cache) payload
    rw [List.foldl_concat, heard_append, lastOf_append, Option.or_assoc]
    refine ⟨hnum'.trans hnum, hinfo'.trans hinfo, ?_⟩
    rw [hnode', hnum, hnode]

/-! ## The place of `my_info` -/

/-- The payloads with `my_info` in between. -/
def placed (before after : List Bytes) (info : CachedMyInfo) : List CacheUpdate :=
  before.map .payload ++ .myInfo info :: after.map .payload

theorem cacheAfter_placed (pb : Protobuf E) (before after : List Bytes) (info : CachedMyInfo) :
    cacheAfter pb (placed before after info) =
      after.foldl (updateCache pb) (updateMyInfo (before.foldl (updateCache pb) {}) info) := by
  simp only [cacheAfter, placed, List.foldl_append, List.foldl_cons, List.foldl_map]
  rfl

/-- The own node is the last one told of behind `my_info`, or else the last one before
it whose number is 0. -/
theorem nodeInfo_placed (pb : Protobuf E) (before after : List Bytes) (info : CachedMyInfo) :
    (cacheAfter pb (placed before after info)).nodeInfo =
      (lastOf CachedNode.num (heard pb after) info.myNodeNum).or
        (lastOf CachedNode.num (heard pb before) 0) := by
  obtain ⟨-, -, hbefore⟩ := foldl_updateCache_own pb before {}
  obtain ⟨-, -, hafter⟩ := foldl_updateCache_own pb after
    (updateMyInfo (before.foldl (updateCache pb) {}) info)
  rw [cacheAfter_placed, hafter]
  show (lastOf _ _ _).or (before.foldl (updateCache pb) {}).nodeInfo = _
  rw [hbefore]
  exact congrArg _ Option.or_none

theorem nodesTold_placed (pb : Protobuf E) (before after : List Bytes) (info : CachedMyInfo) :
    nodesTold pb (placed before after info) = heard pb (before ++ after) := by
  rw [heard_append]
  exact List.filterMap_append ..

theorem channelsTold_placed (pb : Protobuf E) (before after : List Bytes) (info : CachedMyInfo) :
    channelsTold pb (placed before after info) =
      channelsTold pb ((before ++ after).map .payload) := by
  rw [List.map_append, channelsTold, channelsTold, List.filterMap_append]
  exact List.filterMap_append ..

/-- Apart from the own node, the cache does not show where `my_info` came. -/
theorem cacheAfter_placed_eq_iff (pb : Protobuf E) (before after : List Bytes)
    (info : CachedMyInfo) : cacheAfter pb (placed before after info) =
        cacheAfter pb (placed [] (before ++ after) info) ↔
      (cacheAfter pb (placed before after info)).nodeInfo =
        (cacheAfter pb (placed [] (before ++ after) info)).nodeInfo := by
  have hown (before after : List Bytes) :
      (cacheAfter pb (placed before after info)).myNodeNum = info.myNodeNum ∧
        (cacheAfter pb (placed before after info)).myInfo = some info := by
    rw [cacheAfter_placed]
    obtain ⟨hnum, hinfo, -⟩ := foldl_updateCache_own pb after
      (updateMyInfo (before.foldl (updateCache pb) {}) info)
    exact ⟨hnum, hinfo⟩
  constructor
  · intro h
    rw [h]
  · intro hnode
    ext1
    · rw [(hown before after).1, (hown [] (before ++ after)).1]
    · rw [(hown before after).2, (hown [] (before ++ after)).2]
    · exact hnode
    · rw [channels_cacheAfter, channels_cacheAfter, channelsTold_placed, channelsTold_placed,
        List.nil_append]
    · rw [knownNodes_cacheAfter, knownNodes_cacheAfter, nodesTold_placed, nodesTold_placed,
        List.nil_append]

/-- A payload tells of the node with the number. -/
def TellsOf (pb : Protobuf E) (payloads : List Bytes) (num : NodeNum) : Prop :=
  ∃ node ∈ heard pb payloads, node.num = num

instance tellsOf_decidable (pb : Protobuf E) (payloads : List Bytes) (num : NodeNum) :
    Decidable (TellsOf pb payloads num) := List.decidableBEx _ _

theorem tellsOf_append (before after : List Bytes) (num : NodeNum) :
    TellsOf pb (before ++ after) num ↔ TellsOf pb before num ∨ TellsOf pb after num := by
  simp only [TellsOf, heard_append, List.mem_append, or_and_right, exists_or]

theorem lastOf_heard_none_iff {payloads : List Bytes} {num : NodeNum} :
    lastOf CachedNode.num (heard pb payloads) num = none ↔ ¬ TellsOf pb payloads num := by
  rw [lastOf_eq_none_iff, TellsOf]
  simp

/-- **When the place of `my_info` matters.** The cache is what it is with `my_info` first
exactly when the own node is told of behind `my_info`, or neither that node nor a
node 0 before it. The own node is what was told of it last exactly when it is told
of behind `my_info`, or not before it. -/
theorem placed_iff (pb : Protobuf E) (before after : List Bytes) (info : CachedMyInfo)
    (hinfo : info.myNodeNum ≠ 0) :
    (cacheAfter pb (placed before after info) =
        cacheAfter pb (placed [] (before ++ after) info) ↔
      (TellsOf pb before info.myNodeNum ∨ TellsOf pb before 0 →
        TellsOf pb after info.myNodeNum)) ∧
    ((TellsOf pb (before ++ after) info.myNodeNum →
        (cacheAfter pb (placed before after info)).nodeInfo =
          lastOf CachedNode.num (heard pb (before ++ after)) info.myNodeNum) ↔
      (TellsOf pb before info.myNodeNum → TellsOf pb after info.myNodeNum)) := by
  have hfirst : (cacheAfter pb (placed [] (before ++ after) info)).nodeInfo =
      lastOf CachedNode.num (heard pb (before ++ after)) info.myNodeNum := by
    rw [nodeInfo_placed]
    exact Option.or_none
  rw [cacheAfter_placed_eq_iff, hfirst, nodeInfo_placed, heard_append, lastOf_append,
    tellsOf_append]
  cases hafter : lastOf CachedNode.num (heard pb after) info.myNodeNum with
  | some node =>
    have htold : TellsOf pb after info.myNodeNum := ⟨node, mem_of_lastOf hafter, key_of_get hafter⟩
    simp [htold]
  | none =>
    have hnot := lastOf_heard_none_iff.mp hafter
    have hbefore : lastOf CachedNode.num (heard pb before) 0 =
          lastOf CachedNode.num (heard pb before) info.myNodeNum ↔
        ¬ (TellsOf pb before info.myNodeNum ∨ TellsOf pb before 0) := by
      rw [lastOf_eq_lastOf_iff (Ne.symm hinfo), not_or, ← lastOf_heard_none_iff,
        ← lastOf_heard_none_iff, lastOf_eq_none_iff, lastOf_eq_none_iff, ← forall₂_and]
      simp only [and_comm]
    simp only [Option.none_or, hnot, imp_false, or_false, hbefore, true_and]
    constructor
    · intro h htold
      exact h htold (.inl htold)
    · intro hnone htold
      exact absurd htold hnone

/-- A NodeInfo that has only a number. -/
def numberPayload (num : NodeNum) : Bytes :=
  wire.serializeFromRadio
    ⟨1, .nodeInfo ⟨num, none, none, 0, 0, none, false, none, false, false⟩⟩

/-- The mock node's `my_info`. -/
def numberInfo (num : NodeNum) : CachedMyInfo := ⟨num, 0, none, none, none, none⟩

/-- The NodeInfo of a favourite two hops away. -/
def favouritePayload (num : NodeNum) : Bytes :=
  wire.serializeFromRadio
    ⟨2, .nodeInfo ⟨num, none, none, 0, 0, none, false, some 2, true, false⟩⟩

/-- The own node is told of on both sides of `my_info`. -/
theorem placed_between :
    cacheAfter wire (placed [numberPayload 5, numberPayload 9] [favouritePayload 5]
        (numberInfo 5)) =
      cacheAfter wire (placed [] [numberPayload 5, numberPayload 9, favouritePayload 5]
        (numberInfo 5)) ∧
    (cacheAfter wire (placed [numberPayload 5, numberPayload 9] [favouritePayload 5]
        (numberInfo 5))).nodeInfo =
      lastOf CachedNode.num (heard wire [numberPayload 5, numberPayload 9, favouritePayload 5]) 5 ∧
    (heard wire [favouritePayload 5]).getLast? =
      lastOf CachedNode.num (heard wire [numberPayload 5, numberPayload 9, favouritePayload 5])
        5 := by
  obtain ⟨hcache, hown⟩ :=
    placed_iff wire [numberPayload 5, numberPayload 9] [favouritePayload 5] (numberInfo 5)
      (by decide)
  have hbehind : TellsOf wire [favouritePayload 5] 5 := by decide
  exact ⟨hcache.mpr fun _ => hbehind, hown.mpr (fun _ => hbehind) (by decide), by decide⟩

/-- The own node is told of once, just before `my_info`. -/
theorem placed_late :
    TellsOf wire [numberPayload 5] 5 ∧
      (cacheAfter wire (placed [] [numberPayload 5] (numberInfo 5))).nodeInfo =
        lastOf CachedNode.num (heard wire [numberPayload 5]) 5 ∧
      (cacheAfter wire (placed [numberPayload 5] [] (numberInfo 5))).nodeInfo = none ∧
      cacheAfter wire (placed [numberPayload 5] [] (numberInfo 5)) ≠
        cacheAfter wire (placed [] [numberPayload 5] (numberInfo 5)) := by
  decide +kernel

end Multiplextashtic.Cache

import Multiplextashtic.ReplayChannels
import Multiplextashtic.ReplayNodes

/-! # The numbers a replay announces

A replay announces its own number first, and then others: those of the known
nodes, or with none known those of the made-up ones. The others are different
from each other; nothing keeps its own number from being among them. -/
namespace Multiplextashtic.ConfigReplay
open Multiplextashtic.Protocol Multiplextashtic.Messages Multiplextashtic.Config
open Multiplextashtic.Cache Multiplextashtic.Capture Multiplextashtic.Server Protobuf Table

variable {E : Type} {pb : Protobuf E} {env : Env} {ws : List Bytes}

/-! ## Made-up nodes -/

theorem captured_nodes {capture : ConfigCapture} (hc : Captured pb capture) :
    ∃ n ≤ syntheticLimit, (capture.captured.filter fun e => e.type = .nodeInfo) =
      (List.range n).map fun i => entry pb .nodeInfo (.nodeInfo (syntheticNode i)) := by
  cases hc with
  | nothing => exact ⟨0, Nat.zero_le _, rfl⟩
  | defaults nodeNum syntheticNodes firmwareVersion =>
    by_cases hlt : syntheticNodes ≥ 2 ^ 32
    · exact ⟨0, Nat.zero_le _, by rw [captureDefaults, if_pos hlt]; rfl⟩
    · refine ⟨min syntheticNodes syntheticLimit, Nat.min_le_right _ _, ?_⟩
      rw [captureDefaults, if_neg hlt]
      simp [List.filter_append, List.filter_map, Function.comp_def, entry, defaultConfigs,
        defaultModuleConfigs]

theorem syntheticNode_num_injective {i j : Nat} (hi : i < syntheticLimit) (hj : j < syntheticLimit)
    (h : (syntheticNode i).num = (syntheticNode j).num) : i = j := by
  have hn := congrArg UInt32.toNat h
  simp only [syntheticNode, UInt32.toNat_ofNat'] at hn
  have hlimit : syntheticLimit = 927484 := rfl
  omega

/-- The numbers of captured nodes are different. -/
theorem capturedNodes_nodup (hrt : pb.FromRadioRoundTrip) {capture : ConfigCapture}
    (hc : Captured pb capture) :
    ((capturedNodes pb (capture.captured.filter fun e => e.type = .nodeInfo)).map
      NodeInfo.num).Nodup := by
  obtain ⟨n, hn, heq⟩ := captured_nodes hc
  have hnodes : capturedNodes pb (capture.captured.filter fun e => e.type = .nodeInfo) =
      (List.range n).map syntheticNode := by
    rw [heq, capturedNodes, List.filterMap_map, ← List.filterMap_eq_map]
    refine List.filterMap_congr ?_
    intro i _
    simp [Item.pick, entry, hrt _, nodeInfoIn]
  rw [hnodes, List.map_map]
  refine List.Nodup.map_on ?_ List.nodup_range
  intro i hi j hj h
  exact syntheticNode_num_injective (Nat.lt_of_lt_of_le (List.mem_range.mp hi) hn)
    (Nat.lt_of_lt_of_le (List.mem_range.mp hj) hn) h

/-! They are small. -/

theorem utf8ByteSize_le (s : String) : s.utf8ByteSize ≤ 4 * s.length := by
  suffices h : ∀ l : List Char, (String.ofList l).utf8ByteSize ≤ 4 * l.length by
    have hs := h s.toList
    rwa [String.ofList_toList, String.length_toList] at hs
  intro l
  rw [← String.size_toByteArray, String.toByteArray_ofList]
  induction l with
  | nil => exact Nat.le_refl _
  | cons c l ih =>
    rw [List.utf8Encode_cons, ByteArray.size_append, List.utf8Encode_singleton, List.length_cons]
    have hc : (String.utf8EncodeChar c).toByteArray.size ≤ 4 := by
      rw [List.size_toByteArray, String.length_utf8EncodeChar]
      exact c.utf8Size_le_four
    omega

theorem lenSize_le {n : Nat} (hn : n < 2 ^ 32) : lenSize n ≤ n + 6 := by
  have := varintSize_le hn
  unfold lenSize
  omega

theorem strSize_le {s : String} {n : Nat} (hs : s.length ≤ n) (hn : n ≤ 100) :
    strSize s ≤ 4 * n + 6 := by
  have hbytes := utf8ByteSize_le s
  have hlen := lenSize_le (n := s.utf8ByteSize) (by omega)
  unfold strSize textSize
  split <;> omega

theorem u32Size_le (n : UInt32) : u32Size n ≤ 6 := by
  have := varintSize_le n.toNat_lt
  unfold u32Size
  split <;> omega

theorem int32Size_le (n : Int32) : int32Size n ≤ 11 := by
  have hn : (n.toBitVec.signExtend 64).toNat < 2 ^ 64 := BitVec.isLt _
  unfold int32Size varintSize
  by_cases h0 : (n.toBitVec.signExtend 64).toNat = 0
  · rw [h0]; decide
  · have := (Nat.log2_lt h0).mpr hn
    omega

theorem i32Size_le (n : Int32) : i32Size n ≤ 11 := by
  have := int32Size_le n
  unfold i32Size
  split <;> omega

theorem fixed32Size_le (n : UInt32) : fixed32Size n ≤ 5 := by
  unfold fixed32Size
  split <;> omega

theorem syntheticNode_names (i : Nat) : ∃ longName shortName,
    (syntheticNode i).user =
      some ⟨nodeId (syntheticNode i).num, longName, shortName, Int32.ofNat (i % 10), 0, []⟩ ∧
      longName.length ≤ 13 ∧ shortName.length ≤ 4 := by
  have hhex (num : NodeNum) : (hex8 num).length = 8 := by simp [hex8]
  have htable : ∀ n ∈ syntheticNames, n.1.length ≤ 13 ∧ n.2.length ≤ 4 := by decide
  refine ⟨_, _, rfl, ?_⟩
  by_cases hi : i ≥ syntheticNames.length
  · rw [if_pos hi]
    have hnode : "Node ".length = 5 := by decide
    refine ⟨by simp [hhex, hnode], ?_⟩
    simp only [syntheticShort, String.length_ofList, List.length_cons, List.length_take]
    omega
  · rw [if_neg hi]
    have hlt := Nat.lt_of_not_le hi
    rw [List.getD_eq_getElem?_getD, List.getElem?_eq_getElem hlt]
    exact htable _ (List.getElem_mem hlt)

theorem syntheticNode_size (i : Nat) : lenSize (syntheticNode i).size ≤ 506 := by
  obtain ⟨longName, shortName, huser, hlong, hshort⟩ := syntheticNode_names i
  have huserSize : optSize (fun u => lenSize (User.size u)) (syntheticNode i).user ≤ 140 := by
    have hid : (nodeId (syntheticNode i).num).length ≤ 9 := by
      have hbang : "!".length = 1 := by decide
      simp [nodeId, hex8, hbang]
    have h1 := strSize_le hid (by decide)
    have h2 := strSize_le hlong (by decide)
    have h3 := strSize_le hshort (by decide)
    have h4 := i32Size_le (Int32.ofNat (i % 10))
    rw [huser]
    show lenSize (strSize (nodeId (syntheticNode i).num) + strSize longName + strSize shortName +
      i32Size (Int32.ofNat (i % 10)) + 0 + 0) ≤ 140
    exact Nat.le_trans (lenSize_le (by omega)) (by omega)
  have hpos : optSize (fun p => lenSize (Position.size p)) (syntheticNode i).position ≤ 27 := by
    have halt := int32Size_le (Int32.ofNat (10 + i % 100))
    show lenSize (5 + 5 + int32Size (Int32.ofNat (10 + i % 100)) + 0) ≤ 27
    exact Nat.le_trans (lenSize_le (by omega)) (by omega)
  have hmetrics : optSize (fun m => lenSize (DeviceMetrics.size m))
      (syntheticNode i).deviceMetrics ≤ 27 := by
    have hbattery := varintSize_le (UInt32.ofNat (50 + i % 50)).toNat_lt
    show lenSize (1 + varintSize (UInt32.ofNat (50 + i % 50)).toNat + 5 + 5 + 5) ≤ 27
    exact Nat.le_trans (lenSize_le (by omega)) (by omega)
  have hhops :
      optSize (fun h => 1 + varintSize (UInt32.toNat h)) (syntheticNode i).hopsAway ≤ 6 := by
    have := varintSize_le (UInt32.ofNat (i % 4)).toNat_lt
    show 1 + varintSize (UInt32.ofNat (i % 4)).toNat ≤ 6
    omega
  have hnum := u32Size_le (syntheticNode i).num
  have hsnr := fixed32Size_le (syntheticNode i).snr
  have hheard := fixed32Size_le (syntheticNode i).lastHeard
  have hflags : boolSize (syntheticNode i).viaMqtt = 0 ∧ boolSize (syntheticNode i).isFavorite = 0 ∧
      boolSize (syntheticNode i).isIgnored = 0 := ⟨rfl, rfl, rfl⟩
  have hsize : (syntheticNode i).size ≤ 300 := by
    unfold NodeInfo.size
    omega
  exact Nat.le_trans (lenSize_le (by omega)) (by omega)

theorem sure_node (hrt : pb.FromRadioRoundTrip) (hsz : pb.StandardSizes)
    {capture : ConfigCapture} (hc : Captured pb capture) {e : Entry}
    (he : e ∈ capture.captured) (htype : e.type = .nodeInfo) : Sure pb e := by
  obtain ⟨n, -, heq⟩ := captured_nodes hc
  have hm : e ∈ capture.captured.filter fun e => e.type = .nodeInfo :=
    List.mem_filter.mpr ⟨he, decide_eq_true htype⟩
  rw [heq] at hm
  obtain ⟨i, -, rfl⟩ := List.mem_map.mp hm
  exact sure_entry hrt hsz rfl (syntheticNode_size i)

/-! ## The other numbers -/

/-- The number is one of those a replay announces after its own. -/
inductive AnnouncedToo (pb : Protobuf E) (env : Env) (num : NodeNum) : Prop
  | known : num ≠ broadcastNum → num ∈ env.cache.knownNodes.map Prod.fst → AnnouncedToo pb env num
  | madeUp {e : Entry} {id : UInt32} {info : NodeInfo} :
      (∀ n ∈ env.cache.knownNodes, n.1 = broadcastNum) → e ∈ env.capture.captured →
      e.type = .nodeInfo → pb.parseFromRadio e.data = some ⟨id, .nodeInfo info⟩ →
      info.num = num → AnnouncedToo pb env num

/-- The numbers of captured entries. -/
def capturedNums (pb : Protobuf E) (entries : List Entry) : List NodeNum :=
  (capturedNodes pb entries).map NodeInfo.num

theorem sortedNodes_eq_nil {cache : StateCache} :
    sortedNodes cache = [] ↔ ∀ n ∈ cache.knownNodes, n.1 = broadcastNum := by
  rw [List.eq_nil_iff_forall_not_mem]
  constructor
  · intro h n hn
    by_contra hne
    exact h n (mem_sortedNodes.mpr ⟨hn, hne⟩)
  · intro h n hn
    obtain ⟨hn, hne⟩ := mem_sortedNodes.mp hn
    exact hne (h n hn)

theorem mem_capturedNums {entries : List Entry} {num : NodeNum} : num ∈ capturedNums pb entries ↔
    ∃ e ∈ entries, ∃ id info, pb.parseFromRadio e.data = some ⟨id, .nodeInfo info⟩ ∧
      info.num = num := by
  unfold capturedNums capturedNodes
  constructor
  · intro hm
    obtain ⟨info, hinfo, rfl⟩ := List.mem_map.mp hm
    obtain ⟨e, he, hp⟩ := List.mem_filterMap.mp hinfo
    obtain ⟨⟨id, variant⟩, hfr, hv⟩ := Option.bind_eq_some_iff.mp hp
    cases variant <;> cases hv
    exact ⟨e, he, id, info, hfr, rfl⟩
  · rintro ⟨e, he, id, info, hfr, rfl⟩
    refine List.mem_map_of_mem (List.mem_filterMap.mpr ⟨e, he, ?_⟩)
    rw [Item.pick, hfr]
    rfl

theorem announcedToo_iff {num : NodeNum} :
    AnnouncedToo pb env num ↔ num ∈ (sortedNodes env.cache).map Prod.fst ∨
      (sortedNodes env.cache = [] ∧ num ∈ capturedNums pb (env.entries .nodeInfo)) := by
  rw [sortedNodes_eq_nil, mem_capturedNums]
  constructor
  · intro h
    cases h with
    | known hne hm =>
      obtain ⟨n, hn, rfl⟩ := List.mem_map.mp hm
      exact .inl (List.mem_map_of_mem (mem_sortedNodes.mpr ⟨hn, hne⟩))
    | @madeUp e id info hnone he htype hfr hnum =>
      exact .inr ⟨hnone, e, List.mem_filter.mpr ⟨he, decide_eq_true htype⟩, id, info, hfr, hnum⟩
  · rintro (hm | ⟨hnone, e, he, id, info, hfr, hnum⟩)
    · obtain ⟨n, hn, rfl⟩ := List.mem_map.mp hm
      obtain ⟨hn, hne⟩ := mem_sortedNodes.mp hn
      exact .known hne (List.mem_map_of_mem hn)
    · obtain ⟨he, htype⟩ := List.mem_filter.mp he
      exact .madeUp hnone he (of_decide_eq_true htype) hfr hnum

theorem otherNodes_nums (pb : Protobuf E) (env : Env) :
    (otherNodes pb env).map NodeInfo.num = (sortedNodes env.cache).map Prod.fst ++
      capturedNums pb (env.fallback (sortedNodes env.cache).length .nodeInfo) := by
  rw [otherNodes, List.map_append, List.map_map]
  rfl

/-- The others are different from each other, and are these numbers. -/
theorem otherNodes_spec (hrt : pb.FromRadioRoundTrip) (hr : Reached pb env) :
    ((otherNodes pb env).map NodeInfo.num).Nodup ∧
      ∀ num, num ∈ (otherNodes pb env).map NodeInfo.num ↔ AnnouncedToo pb env num := by
  rw [otherNodes_nums]
  by_cases hnone : sortedNodes env.cache = []
  · have hfallback : env.fallback (sortedNodes env.cache).length .nodeInfo =
        env.entries .nodeInfo := by
      rw [hnone]
      rfl
    rw [hfallback, hnone, List.map_nil, List.nil_append]
    refine ⟨capturedNodes_nodup hrt hr.captured, ?_⟩
    intro num
    rw [announcedToo_iff, hnone]
    simp
  · have hfallback : env.fallback (sortedNodes env.cache).length .nodeInfo = [] :=
      if_neg (mt List.length_eq_zero_iff.mp hnone)
    rw [hfallback]
    show (_ ++ []).Nodup ∧ ∀ num, num ∈ _ ++ [] ↔ _
    rw [List.append_nil]
    refine ⟨sortedNodes_unique hr.unique, ?_⟩
    intro num
    rw [announcedToo_iff]
    simp [hnone]

/-! ## Number by number -/

theorem sentNodes_append (hrt : pb.FromRadioRoundTrip) {r : Replay} {variant : FromRadioVariant E}
    {data : Bytes} (he : encode pb r variant = .ok data) (ws : List Bytes) :
    sentNodes pb (ws ++ [data]) = sentNodes pb ws ++ (nodeInfoIn variant).toList := by
  rw [sentNodes, received_concat (encode_parses hrt he), List.filterMap_append]
  cases hv : nodeInfoIn variant <;> simp [sentNodes, hv]

/-- The numbers sent so far, where a replay stands. -/
inductive Numbered (pb : Protobuf E) (own : NodeNum) : List NodeNum → Phase → Prop
  | start : Numbered pb own [] .start
  | myInfo : Numbered pb own [] .myInfo
  | ownNodeInfo : Numbered pb own [own] .ownNodeInfo
  | metadata : Numbered pb own [own] .metadata
  | channel {next sent : Nat} : Numbered pb own [own] (.channel next sent)
  | capturedChannel {rest : List Entry} : Numbered pb own [own] (.capturedChannel rest)
  | config {rest : List Entry} : Numbered pb own [own] (.config rest)
  | knownNode {nums : List NodeNum} {rest : List (NodeNum × CachedNode)} {sent : Nat} :
      sent ≠ 0 → (nums ++ rest.map Prod.fst).Nodup → Numbered pb own nums (.knownNode rest sent)
  | syntheticNode {nums : List NodeNum} {rest : List Entry} :
      (nums ++ capturedNums pb rest).Nodup → Numbered pb own nums (.syntheticNode rest)
  | configComplete {nums : List NodeNum} : nums.Nodup → Numbered pb own nums .configComplete

/-- Inside a turn a replay may also stand before the nodes it has just looked up. -/
inductive Numbering (pb : Protobuf E) (own : NodeNum) (env : Env) : List NodeNum → Phase → Prop
  | kept {nums : List NodeNum} {phase : Phase} : Numbered pb own nums phase →
      Numbering pb own env nums phase
  | sorted : Numbering pb own env [own] (.knownNode (sortedNodes env.cache) 0)

/-- In this environment a replay does not announce its own number again. -/
def OwnOnce (pb : Protobuf E) (own : NodeNum) (env : Env) : Prop :=
  Reached pb env ∧ ¬ AnnouncedToo pb env own

variable {own : NodeNum} {nums : List NodeNum} {r r' : Replay}

/-- A loop that passes over an entry sends no number. -/
theorem Numbering.passes {phase : List Entry → Phase} (hl : Loop phase) {e : Entry}
    {rest : List Entry} (h : Numbering pb own env nums (phase (e :: rest))) :
    Numbering pb own env nums (phase rest) := by
  cases hl with
  | channel =>
    cases h with
    | kept h => cases h with
      | capturedChannel => exact .kept .capturedChannel
  | config =>
    cases h with
    | kept h => cases h with
      | config => exact .kept .config
  | node =>
    cases h with
    | kept h => cases h with
      | syntheticNode hnodup =>
        refine .kept (.syntheticNode (hnodup.sublist ?_))
        refine (List.Sublist.refl nums).append ?_
        exact ((List.sublist_cons_self e rest).filterMap _).map _

/-- The nodes a replay has looked up have other numbers than its own. -/
theorem OwnOnce.sorted_nodup (ho : OwnOnce pb own env) :
    ([own] ++ (sortedNodes env.cache).map Prod.fst).Nodup := by
  refine List.nodup_cons.mpr ⟨?_, sortedNodes_unique ho.1.unique⟩
  intro hm
  exact ho.2 (announcedToo_iff.mpr (.inl hm))

theorem OwnOnce.captured_nodup (hrt : pb.FromRadioRoundTrip) (ho : OwnOnce pb own env)
    (hnone : sortedNodes env.cache = []) :
    ([own] ++ capturedNums pb (env.entries .nodeInfo)).Nodup := by
  refine List.nodup_cons.mpr ⟨?_, capturedNodes_nodup hrt ho.1.captured⟩
  intro hm
  exact ho.2 (announcedToo_iff.mpr (.inr ⟨hnone, hm⟩))

theorem Numbering.skips (hrt : pb.FromRadioRoundTrip) (ho : OwnOnce pb own env)
    (h : Numbering pb own env nums r.phase) (hs : Skips pb env r r') :
    Numbering pb own env nums r'.phase := by
  cases hs with
  | nodesOnly hp =>
    rw [hp] at h
    cases h with
    | kept h => cases h; exact .sorted
  | channels hp =>
    rw [hp] at h
    cases h with
    | kept h => cases h; exact .kept .channel
  | noChannel hp =>
    rw [hp] at h
    cases h with
    | kept h => cases h; exact .kept .capturedChannel
  | configs hp =>
    rw [hp] at h
    cases h with
    | kept h => cases h; exact .kept .config
  | configOnly hp =>
    rw [hp] at h
    cases h with
    | kept h =>
      cases h
      exact .kept (.syntheticNode (List.nodup_singleton own))
  | nodes hp =>
    rw [hp] at h
    cases h with
    | kept h => cases h; exact .sorted
  | @noNode sent hp =>
    rw [hp] at h
    refine .kept (.syntheticNode ?_)
    generalize hphase : Phase.knownNode [] sent = phase at h
    cases h with
    | kept h =>
      rw [← hphase] at h
      cases h with
      | knownNode hsent hnodup =>
        rw [Env.fallback, if_neg hsent]
        exact hnodup
    | sorted =>
      injection hphase with hnone hsent
      rw [Env.fallback, if_pos hsent]
      exact ho.captured_nodup hrt hnone.symm
  | unparsed hl hp =>
    rw [hp] at h
    exact h.passes hl
  | tooLarge hl hp =>
    rw [hp] at h
    exact h.passes hl

/-- A node of the table that is sent next. -/
theorem Numbering.sendsNode (ho : OwnOnce pb own env) {num : NodeNum} {node : CachedNode}
    {rest : List (NodeNum × CachedNode)} {sent : Nat}
    (h : Numbering pb own env nums (.knownNode ((num, node) :: rest) sent)) :
    (nums ++ [num] ++ rest.map Prod.fst).Nodup := by
  rw [List.append_assoc]
  generalize hphase : Phase.knownNode ((num, node) :: rest) sent = phase at h
  cases h with
  | kept h =>
    rw [← hphase] at h
    cases h with
    | knownNode _ hnodup => exact hnodup
  | sorted =>
    injection hphase with hrest
    have hnodup := ho.sorted_nodup
    rw [← hrest] at hnodup
    exact hnodup

/-- A captured entry that a loop sends. -/
theorem Numbering.sendsCaptured {phase : List Entry → Phase} (hl : Loop phase) {e : Entry}
    {rest : List Entry} (hp : Proper pb (phase (e :: rest))) {fr : FromRadio E}
    (hfr : pb.parseFromRadio e.data = some fr)
    (h : Numbering pb own env nums (phase (e :: rest))) :
    Numbered pb own (nums ++ (nodeInfoIn fr.variant).toList.map NodeInfo.num) (phase rest) := by
  obtain ⟨hholds, -, hown, hnode⟩ := hp.head hl hfr
  have hother (hne : phase ≠ .syntheticNode) : nodeInfoIn fr.variant = none :=
    hholds.nodeInfoIn (fun htype => hne (hnode htype)) hown
  cases hl with
  | channel =>
    cases h with
    | kept h => cases h with
      | capturedChannel =>
        rw [hother fun heq => by cases congrFun heq []]
        exact .capturedChannel
  | config =>
    cases h with
    | kept h => cases h with
      | config =>
        rw [hother fun heq => by cases congrFun heq []]
        exact .config
  | node =>
    cases h with
    | kept h => cases h with
      | syntheticNode hnodup =>
        refine .syntheticNode ?_
        have hcons : capturedNums pb (e :: rest) =
            (nodeInfoIn fr.variant).toList.map NodeInfo.num ++ capturedNums pb rest := by
          rw [capturedNums, capturedNodes, List.filterMap_cons, Item.pick, hfr, Option.bind_some]
          cases nodeInfoIn fr.variant <;> rfl
        rwa [hcons, ← List.append_assoc] at hnodup

/-- **What a turn sends leaves the numbers different.** -/
theorem Numbering.emits (hrt : pb.FromRadioRoundTrip) (ho : OwnOnce pb own env)
    (hown : r.nodeNum = own) (hproper : Proper pb r.phase) (h : Numbering pb own env nums r.phase)
    {variant : FromRadioVariant E} {phase : Phase} (hem : Emits pb env r variant phase) :
    Numbered pb own (nums ++ (nodeInfoIn variant).toList.map NodeInfo.num) phase := by
  have hnum : [(ownNodeInfo env r).num] = [own] := by rw [ownNodeInfo_num, hown]
  cases hem with
  | captured hl hp hfr =>
    rw [hp] at h hproper
    exact h.sendsCaptured hl hproper hfr
  | own hs =>
    cases hs with
    | myInfo hp =>
      rw [hp] at h
      cases h with
      | kept h => cases h; exact .myInfo
    | ownFirst hp =>
      rw [hp] at h
      cases h with
      | kept h =>
        cases h
        show Numbered pb own [(ownNodeInfo env r).num] _
        rw [hnum]
        exact .ownNodeInfo
    | ownNodeInfo hp =>
      rw [hp] at h
      cases h with
      | kept h =>
        cases h
        show Numbered pb own [(ownNodeInfo env r).num] _
        rw [hnum]
        exact .ownNodeInfo
    | metadata hp _ hm =>
      rw [hp] at h
      obtain ⟨md, hmd⟩ := metadataMessage_typed (typed_captured hrt ho.1.captured)
      cases hmd.symm.trans hm
      cases h with
      | kept h => cases h; exact .metadata
    | channel hp =>
      rw [hp] at h
      cases h with
      | kept h => cases h; exact .channel
    | knownNode hp =>
      rw [hp] at h
      exact .knownNode (Nat.succ_ne_zero _) (h.sendsNode ho)
    | configComplete hp =>
      rw [hp] at h
      cases h with
      | kept h => cases h with
        | syntheticNode hnodup => exact .configComplete hnodup

theorem Numbered.nodup {phase : Phase} (h : Numbered pb own nums phase) : nums.Nodup := by
  cases h with
  | start | myInfo => exact List.nodup_nil
  | ownNodeInfo | metadata | channel | capturedChannel | config => exact List.nodup_singleton own
  | knownNode _ hnodup | syntheticNode hnodup => exact hnodup.of_append_left
  | configComplete hnodup => exact hnodup

/-- The numbers of the NodeInfos a client has been sent. -/
def sentNums (pb : Protobuf E) (ws : List Bytes) : List NodeNum :=
  (sentNodes pb ws).map NodeInfo.num

/-- What a replay has sent is numbered, whatever became of the server meanwhile. -/
theorem Writes.numbered (hrt : pb.FromRadioRoundTrip) {start : Replay}
    (hstart : start.phase = .start)
    (hw : Writes pb (fun env _ => OwnOnce pb start.nodeNum env) start ws r) :
    Numbered pb start.nodeNum (sentNums pb ws) r.phase := by
  suffices h : (r.nodeNum = start.nodeNum ∧ Proper pb r.phase) ∧
      Numbered pb start.nodeNum (sentNums pb ws) r.phase from h.2
  refine hw.keepsIn
    (I := fun ws r => (r.nodeNum = start.nodeNum ∧ Proper pb r.phase) ∧
      Numbered pb start.nodeNum (sentNums pb ws) r.phase)
    (J := fun env ws r => (r.nodeNum = start.nodeNum ∧ Proper pb r.phase) ∧
      Numbering pb start.nodeNum env (sentNums pb ws) r.phase) ?_ ?_ ?_ ?_
  · intro env _
    rw [hstart]
    exact ⟨⟨rfl, trivial⟩, .kept .start⟩
  · rintro env lost ws r sent - ⟨hown, hn⟩
    exact ⟨hown, .kept hn⟩
  · rintro env lost ws r r' ho hs ⟨⟨hown, hp⟩, hn⟩
    have htyped := typed_captured hrt ho.1.captured
    exact ⟨⟨hs.same.2.1.trans hown, hs.proper htyped hp⟩, hn.skips hrt ho hs⟩
  · rintro env lost ws r variant phase data ho hem he ⟨⟨hown, hp⟩, hn⟩
    refine ⟨⟨hown, hem.proper hp⟩, ?_⟩
    rw [sentNums, sentNodes_append hrt he, List.map_append]
    exact hn.emits hrt ho hown hp hem

/-- **A replay announces a number twice just when its own is among the others**:
never, if in no environment it runs in it is; and in an undisturbed replay of the
nodes always when it is. -/
theorem replay_numbers_nodup_iff (hrt : pb.FromRadioRoundTrip) (hsz : pb.StandardSizes)
    (myNodeNum : NodeNum) (configId : UInt32) :
    let own := (Replay.new myNodeNum configId).nodeNum
    (∀ ws r, Writes pb (fun env _ => Reached pb env ∧ ¬ AnnouncedToo pb env own)
      (Replay.new myNodeNum configId) ws r → (sentNums pb ws).Nodup) ∧
    ∀ env ws, Reached pb env → configId ≠ nonceOnlyConfig → Replays pb env myNodeNum configId ws →
      ((sentNums pb ws).Nodup ↔ ¬ AnnouncedToo pb env own) := by
  intro own
  constructor
  · intro ws r hw
    exact (Writes.numbered hrt rfl hw).nodup
  · intro env ws hr hid h
    obtain ⟨hnodup, hmem⟩ := otherNodes_spec hrt hr
    have hsure : ∀ e ∈ env.fallback (sortedNodes env.cache).length .nodeInfo, Sure pb e :=
      fun e he => sure_node hrt hsz hr.captured (mem_fallback he).1 (mem_fallback he).2
    rw [sentNums, h.sentNodes hrt hr.captured hid hsure, List.map_cons, List.nodup_cons,
      ownNodeInfo_num, hmem, and_iff_left hnodup]

/-- A server that shows itself under its own name. -/
def ownName : AppConfig := { virtualNode := { syncPhysicalIdentity := false } }

/-- The device tells of its number, and then of itself. -/
def ownNodeTold : List Event :=
  [.radio (wire.serializeFromRadio ⟨1, .myInfo ⟨5, 0, 0, [], 0, 0⟩⟩), .processIncoming,
    .cacheMyInfo, .radio (nodePayload favouriteNode), .processIncoming]

set_option maxRecDepth 20000 in
/-- Clients are sent the own node twice, under different names. -/
theorem replay_numbers_ownTwice :
    ∃ env ws, Reached wire env ∧ Replays wire env 5 nonceOnlyDb ws ∧
      (sentNodes wire ws).map (fun ni => (ni.num, ni.user.map (·.longName))) =
        [(5, some "Virtual Multiplexer"), (5, some "Base")] ∧ ¬ (sentNums wire ws).Nodup := by
  have hrun : (Run.run (step wire) (init ownName) ownNodeTold).map (fun s =>
      let writes := perform wire 1 (script wire (world s).env 5 nonceOnlyDb)
      (writes.2, sentNums wire writes.1,
        (sentNodes wire writes.1).map fun ni => (ni.num, ni.user.map (·.longName)))) =
      some (none, [5, 5], [(5, some "Virtual Multiplexer"), (5, some "Base")]) := by decide
  obtain ⟨s, hs, hwrites⟩ := Option.map_eq_some_iff.mp hrun
  obtain ⟨hok, hsent⟩ := Prod.mk.inj hwrites
  obtain ⟨hnums, hnames⟩ := Prod.mk.inj hsent
  refine ⟨(world s).env, _, ⟨ownName, ownNodeTold, s, hs, rfl⟩, replays_perform hok, hnames, ?_⟩
  rw [hnums]
  decide

set_option maxRecDepth 20000 in
theorem replay_numbers_nodup_iff_other :
    ∃ env ws, Reached wire env ∧ Replays wire env 0x11 nonceOnlyDb ws ∧
      (sentNums wire ws).Nodup := by
  have hrun : (Run.run (step wire) (init ownName) ownNodeTold).map (fun s =>
      ((perform wire 1 (script wire (world s).env 0x11 nonceOnlyDb)).2,
        s.cache.knownNodes.map Prod.fst)) = some (none, [5]) := by decide
  obtain ⟨s, hs, hwrites⟩ := Option.map_eq_some_iff.mp hrun
  obtain ⟨hok, hknown⟩ := Prod.mk.inj hwrites
  have hr : Reached wire (world s).env := ⟨ownName, ownNodeTold, s, hs, rfl⟩
  refine ⟨(world s).env, _, hr, replays_perform hok, ?_⟩
  refine ((replay_numbers_nodup_iff wire_fromRadioRoundTrip wire_standardSizes 0x11 nonceOnlyDb).2
    _ _ hr (by decide) (replays_perform hok)).mpr ?_
  intro h
  have hmem : (5 : NodeNum) ∈ s.cache.knownNodes.map Prod.fst := by
    rw [hknown]
    decide
  cases h with
  | known _ hown =>
    change 0x11 ∈ s.cache.knownNodes.map Prod.fst at hown
    rw [hknown] at hown
    exact absurd hown (by decide)
  | madeUp hnone =>
    obtain ⟨n, hn, hfive⟩ := List.mem_map.mp hmem
    rw [hnone n hn] at hfive
    exact absurd hfive (by decide)

end Multiplextashtic.ConfigReplay

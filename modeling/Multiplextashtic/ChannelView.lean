import Multiplextashtic.ClientView
import Multiplextashtic.Components
import Multiplextashtic.Subscription

/-! # The channels a client ends up with

A client that connects when a channel is known, and does with what it is sent what the
server does with what it reads, has the channels the server has: those it was told of
while replays overtake what waits in its queue, and all of them once a replay for them is
over and the queue is empty. -/
namespace Multiplextashtic.ConfigReplay
open Multiplextashtic.Protocol Multiplextashtic.Messages Multiplextashtic.Cache
open Multiplextashtic.Client Multiplextashtic.Server Replica Table

variable {E : Type} {pb : Protobuf E} {w w' : World} {t : List CachedChannel} {r r' : Replay}
  {variant : FromRadioVariant E} {phase : Phase} {h : ClientHandler E} {k k' : List Int32}

/-! ## Where a replay stands -/

/-- No captured channel is on its way: a channel of the cache has been sent, or comes next. -/
def Phase.stocked : Phase → Prop
  | .channel next sent => sent = 0 → next = 0
  | .capturedChannel rest => rest = []
  | _ => True

/-- The indices a full replay has sent, of those in the cache. -/
def Phase.shown (indices : List Int32) : Phase → List Int32
  | .channel next _ => indices.take next
  | .capturedChannel _ => indices
  | .config _ => indices
  | .knownNode _ _ => indices
  | .syntheticNode _ => indices
  | .configComplete => indices
  | _ => []

/-- What a replay has told of the channels. -/
structure ChannelStands (pb : Protobuf E) (w : World) (t : List CachedChannel) (r : Replay) :
    Prop where
  proper : Proper pb r.phase
  stocked : r.phase.stocked
  shown : r.configId ≠ nonceOnlyDb →
    ∀ i ∈ r.phase.shown w.env.indices, Told CachedChannel.index t i

/-- The channels, for a server that knows one. -/
def channelView (pb : Protobuf E) : View E CachedChannel Int32 where
  tells variant := (channelIn variant).map cachedChannel
  key := CachedChannel.index
  current cache := get CachedChannel.index cache.channels
  Fit w := Captured pb w.env.capture ∧ Sorted w.env ∧ w.env.cache.channels ≠ []
  Stands := ChannelStands pb
  Covers cache t := ∀ ch ∈ cache.channels, Told CachedChannel.index t ch.index
  full nonce := nonce ≠ nonceOnlyDb

theorem ChannelStands.mono {t' : List CachedChannel} (h : ChannelStands pb w t r) (hsub : t ⊆ t') :
    ChannelStands pb w t' r :=
  ⟨h.proper, h.stocked, fun hid i hi => (h.shown hid i hi).mono hsub⟩

theorem ChannelStands.skips (hrt : pb.FromRadioRoundTrip) (hfit : (channelView pb).Fit w)
    (hs : Skips pb w.env r r') (h : ChannelStands pb w t r) : ChannelStands pb w t r' := by
  obtain ⟨hcaptured, -, hknown⟩ := hfit
  obtain ⟨hproper, hstocked, hshown⟩ := h
  have hproper' := hs.proper (typed_captured hrt hcaptured) hproper
  rw [← hs.same.1] at hshown
  cases hs with
  | nodesOnly hp hid => exact ⟨hproper', trivial, fun hne => absurd hid hne⟩
  | channels hp => exact ⟨hproper', fun _ => rfl, fun _ _ hi => nomatch hi⟩
  | @noChannel next sent hp hch =>
    rw [hp] at hstocked hshown
    have hlen := List.getElem?_eq_none_iff.mp hch
    have hsent : sent ≠ 0 := by
      intro h0
      have hnext : next = 0 := hstocked h0
      rw [hnext] at hlen
      exact hknown (List.length_eq_zero_iff.mp (Nat.le_zero.mp hlen))
    have hall : w.env.indices.take next = w.env.indices := by
      refine List.take_of_length_le ?_
      rwa [Env.indices, List.length_map]
    refine ⟨hproper', if_neg hsent, ?_⟩
    intro hid i hi
    refine hshown hid i ?_
    show i ∈ w.env.indices.take next
    rwa [hall]
  | configs hp | configOnly hp | nodes hp | noNode hp =>
    rw [hp] at hshown
    exact ⟨hproper', trivial, hshown⟩
  | unparsed hl hp | tooLarge hl hp =>
    rw [hp] at hstocked hshown
    cases hl with
    | channel => cases hstocked
    | config | node => exact ⟨hproper', trivial, hshown⟩

theorem ChannelStands.emits (hrt : pb.FromRadioRoundTrip) (hfit : (channelView pb).Fit w)
    (hem : Emits pb w.env r variant phase) (h : ChannelStands pb w t r) :
    ChannelStands pb w (t ++ ((channelView pb).tells variant).toList) (r.wrote phase) ∧
      ∀ a, (channelView pb).tells variant = some a → a ∈ w.env.cache.channels := by
  obtain ⟨hcaptured, -, -⟩ := hfit
  have hproper' := hem.proper h.proper
  have hsilent (hnone : channelIn variant = none)
      (hstands : ChannelStands pb w t (r.wrote phase)) :
      ChannelStands pb w (t ++ ((channelView pb).tells variant).toList) (r.wrote phase) ∧
        ∀ a, (channelView pb).tells variant = some a → a ∈ w.env.cache.channels := by
    have htells : (channelView pb).tells variant = none := congrArg (Option.map _) hnone
    rw [htells]
    exact ⟨hstands.mono (List.subset_append_left _ _), nofun⟩
  obtain ⟨hproper, hstocked, hshown⟩ := h
  cases hem with
  | own hs =>
    cases hs with
    | myInfo | ownFirst | ownNodeInfo =>
      exact hsilent rfl ⟨hproper', trivial, fun _ _ hi => nomatch hi⟩
    | metadata hp hid hm =>
      obtain ⟨md, hmd⟩ := metadataMessage_typed (typed_captured hrt hcaptured)
      rw [hmd] at hm
      cases hm
      exact hsilent rfl ⟨hproper', trivial, fun _ _ hi => nomatch hi⟩
    | @channel next sent ch hp hch =>
      rw [hp] at hshown
      refine ⟨⟨hproper', nofun, ?_⟩, ?_⟩
      · intro hid i hi
        have htake : w.env.indices.take (next + 1) = w.env.indices.take next ++ [ch.index] := by
          rw [List.take_add_one, Env.indices, List.getElem?_map, hch]
          rfl
        change i ∈ w.env.indices.take (next + 1) at hi
        rw [htake] at hi
        rcases List.mem_append.mp hi with hi | hi
        · exact (hshown hid i hi).mono (List.subset_append_left _ _)
        · exact .concat (List.mem_singleton.mp hi).symm
      · intro a ha
        cases ha
        exact List.mem_of_getElem? hch
    | knownNode hp | configComplete hp =>
      rw [hp] at hshown
      exact hsilent rfl ⟨hproper', trivial, hshown⟩
  | @captured phase entry rest fr hl hp hfr =>
    rw [hp] at hproper hstocked hshown
    cases hl with
    | channel => cases hstocked
    | config =>
      exact hsilent (Proper.channelIn_none .config hproper rfl hfr) ⟨hproper', trivial, hshown⟩
    | node =>
      exact hsilent (Proper.channelIn_none .node hproper rfl hfr) ⟨hproper', trivial, hshown⟩

/-- Behind its last message a full replay has told of every channel. -/
theorem ChannelStands.completes (hrt : pb.FromRadioRoundTrip) (hfit : (channelView pb).Fit w)
    {nonce : UInt32} (hem : Emits pb w.env r (.configCompleteId nonce) phase)
    (h : ChannelStands pb w t r) (hfull : nonce ≠ nonceOnlyDb) :
    (channelView pb).Covers w.env.cache t := by
  obtain ⟨hp, rfl⟩ := hem.configCompleteId (typed_captured hrt hfit.1) h.proper
  have hshown := h.shown hfull
  rw [hp] at hshown
  exact fun ch hch => hshown ch.index (List.mem_map_of_mem hch)

theorem channelView_lawful (hrt : pb.FromRadioRoundTrip) : (channelView pb).Lawful pb where
  answer h := by cases h <;> rfl
  mono h hsub := ChannelStands.mono h hsub
  covers_mono h hsub := fun ch hch => (h ch hch).mono hsub
  start _ _ := ⟨trivial, trivial, fun _ _ hi => nomatch hi⟩
  ack _ h := ⟨h.proper, h.stocked, h.shown⟩
  skips hfit hs h := ChannelStands.skips hrt hfit hs h
  current hfit hem h a ha := by
    have hordered : Ordered (· < ·) CachedChannel.index _ := List.pairwise_map.mp hfit.2.1
    exact (get_eq_some_iff hordered.unique).mpr
      ⟨(ChannelStands.emits hrt hfit hem h).2 a ha, rfl⟩
  emits hfit hem h := (ChannelStands.emits hrt hfit hem h).1
  completes hfit hem h hfull := ChannelStands.completes hrt hfit hem h hfull

end Multiplextashtic.ConfigReplay

namespace Multiplextashtic.Server
open Multiplextashtic.Protocol Multiplextashtic.Messages Multiplextashtic.Config
open Multiplextashtic.Cache Multiplextashtic.ConfigReplay Multiplextashtic.Client
open Replica Run Table

variable {E : Type} {pb : Protobuf E} {s s' : TCPServer E} {w w' : World} {h : ClientHandler E}
  {k k' : List Int32} {x : Int32}

/-! ## A channel arrives -/

/-- What a replay has sent of a list it has still sent when an index is put into it, but
for that index. -/
theorem mem_shown_inserted (hk : k.Pairwise (· < ·)) (hk' : k'.Pairwise (· < ·))
    (hi : Inserted k x k') (phase : Phase) {i : Int32} (hm : i ∈ phase.shown k') :
    i ∈ phase.shown k ∨ i = x := by
  have hall (hm : i ∈ k') : i ∈ k ∨ i = x := by
    cases hi with
    | known => exact .inl hm
    | new _ hp => exact (Cursor.mem_insert hp).mp hm
  cases phase with
  | channel next sent =>
    cases hi with
    | known => exact .inl hm
    | new hx hp =>
      change i ∈ k'.take next at hm
      refine ((Cursor.mem_insert hp).mp (List.mem_of_mem_take hm)).imp_left ?_
      intro hik
      show i ∈ k.take next
      rw [← List.take_append_drop next k] at hik
      refine (List.mem_append.mp hik).resolve_right ?_
      intro hdrop
      have hdrop' := Cursor.mem_drop_insert hk hk' hp hdrop
      have hnodup := hk'.nodup
      rw [← List.take_append_drop next k'] at hnodup
      exact (List.nodup_append.mp hnodup).2.2 i hm i hdrop' rfl
  | start | myInfo | ownNodeInfo | metadata => cases hm
  | capturedChannel | config | knownNode | syntheticNode | configComplete => exact hall hm

/-- The table of channels stays, or is told a channel. -/
theorem channels_moves (hfit : (channelView pb).Fit w) (hc : Captured pb w'.env.capture)
    (row : Option CachedChannel) (hch : w'.env.cache.channels =
      row.elim w.env.cache.channels fun ch => (updateChannel w.env.cache ch).channels) :
    Moves (channelView pb) h w w' row.toList := by
  obtain ⟨-, hsorted, hknown⟩ := hfit
  cases row with
  | none =>
    have hindices : w'.env.indices = w.env.indices := congrArg (List.map _) hch
    refine ⟨⟨hc, ?_, ?_⟩, ?_, ?_, ?_⟩
    · rwa [Sorted, hindices]
    · rwa [hch]
    · intro k
      show get _ w'.env.cache.channels k = _
      rw [hch]
      rfl
    · intro t source r _ hr
      rw [Option.toList_none, List.append_nil]
      exact ⟨hr.proper, hr.stocked, hindices ▸ hr.shown⟩
    · intro t ht
      rw [Option.toList_none, List.append_nil]
      show ∀ ch ∈ w'.env.cache.channels, _
      rw [hch]
      exact ht
  | some ch =>
    change w'.env.cache.channels = (updateChannel w.env.cache ch).channels at hch
    have hordered : Ordered (· < ·) CachedChannel.index w.env.cache.channels :=
      List.pairwise_map.mp hsorted
    obtain ⟨hsorted', hinserted⟩ := updateChannel_inserted ch hsorted
    have hindices : w'.env.indices =
        (updateChannel w.env.cache ch).channels.map CachedChannel.index := congrArg (List.map _) hch
    rw [← hindices] at hsorted' hinserted
    have hmem (phase : Phase) {t : List CachedChannel} {i : Int32}
        (ht : ∀ i ∈ phase.shown w.env.indices, Told CachedChannel.index t i)
        (hi : i ∈ phase.shown w'.env.indices) : Told CachedChannel.index (t ++ [ch]) i := by
      rcases mem_shown_inserted hsorted hsorted' hinserted phase hi with hi | rfl
      · exact (ht i hi).mono (List.subset_append_left _ _)
      · exact .concat rfl
    refine ⟨⟨hc, hsorted', ?_⟩, ?_, ?_, ?_⟩
    · intro hnil
      have hnone : w'.env.indices = [] := congrArg (List.map _) hnil
      have hsub := hinserted.subset
      rw [hnone, List.subset_nil] at hsub
      exact hknown (List.map_eq_nil_iff.mp hsub)
    · intro k
      show get _ w'.env.cache.channels k = (lastOf CachedChannel.index [ch] k).or _
      rw [hch, get_updateChannel hordered, lastOf_singleton]
      split <;> rfl
    · intro t source r _ hr
      exact ⟨hr.proper, hr.stocked, fun hid i hi => hmem _ (hr.shown hid) hi⟩
    · intro t ht c hc
      refine hmem .configComplete ?_ (List.mem_map_of_mem hc)
      intro i hi
      obtain ⟨c, hc, rfl⟩ := List.mem_map.mp hi
      exact ht c hc

/-- Whatever a server does, its clients can follow the channels. -/
theorem channelView_followed (pb : Protobuf E) (cid : Nat) :
    Followed (channelView pb) pb cid fun _ _ => True where
  echo _ _ := rfl
  moves := by
    intro s s' e h _ hclient hs _ hfit
    have hc : Captured pb s'.capture := captured_step hfit.1 hs
    rcases world_step hs hclient with ⟨payload, rest, rfl, hq, hworld⟩ | ⟨hnone, hch, -⟩
    · have hrow : (messageOf pb (.payload payload)).bind (channelView pb).tells =
          (channelTold pb (.payload payload)).map cachedChannel := by
        rw [channelTold, Option.map_bind]
        rfl
      rw [handedRows_payload _ hq, hrow]
      refine channels_moves hfit hc _ ?_
      rw [hworld]
      show (update pb s.cache (.payload payload)).channels = _
      rw [update_channels]
      cases channelTold pb (.payload payload) <;> rfl
    · rw [handedRows, hnone]
      exact channels_moves hfit hc none hch

/-! ## The table of a client -/

theorem get_clientCache (pb : Protobuf E) (ws : List Bytes) (k : Int32) :
    get CachedChannel.index (clientCache pb ws).channels k =
      lastOf CachedChannel.index ((channelView pb).told pb ws) k := by
  have htold : (channelsTold pb (ws.map .payload)).map cachedChannel =
      (channelView pb).told pb ws := by
    rw [channelsTold, View.told, received, List.filterMap_map, List.filterMap_filterMap,
      List.map_filterMap]
    refine List.filterMap_congr ?_
    intro data _
    show ((messageOf pb (.payload data)).bind channelIn).map cachedChannel = _
    rw [Option.map_bind]
    rfl
  rw [clientCache_eq, channels_cacheAfter, get_channelCache, htold]

theorem clientCache_ordered (pb : Protobuf E) (ws : List Bytes) :
    Ordered (· < ·) CachedChannel.index (clientCache pb ws).channels := by
  rw [clientCache_eq]
  exact channels_sorted pb _

/-- **A client's channels** are of the server's, and are the server's once a replay has
told of all. -/
theorem viewed_channels (hfit : (channelView pb).Fit w)
    (hview : Viewed pb (channelView pb) w h) :
    (clientCache pb (feed h)).channels ⊆ w.env.cache.channels ∧
      ((∃ nonce, Configured pb h nonce ∧ nonce ≠ nonceOnlyDb) →
        (clientCache pb (feed h)).channels = w.env.cache.channels) := by
  have hclient := clientCache_ordered pb (feed h)
  have hserver : Ordered (· < ·) CachedChannel.index w.env.cache.channels :=
    List.pairwise_map.mp hfit.2.1
  constructor
  · intro ch hch
    have hget := (get_eq_some_iff hclient.unique).mpr ⟨hch, rfl⟩
    rw [get_clientCache] at hget
    exact ((get_eq_some_iff hserver.unique).mp (hview.agrees ch.index ch hget)).1
  · intro ⟨nonce, hconfigured, hfull⟩
    refine hclient.ext hserver ?_
    intro k
    rw [get_clientCache]
    refine (hview.agrees k).eq ?_
    intro ch hch
    obtain ⟨hmem, rfl⟩ := (get_eq_some_iff hserver.unique).mp hch
    exact hview.covers nonce hconfigured hfull ch hmem

end Multiplextashtic.Server

namespace Multiplextashtic.Main
open Multiplextashtic.Protocol Multiplextashtic.Messages Multiplextashtic.Config
open Multiplextashtic.PhysicalNode (PhysicalNodeConfig ConnectAwait)
open Multiplextashtic.Cache Multiplextashtic.ConfigReplay Multiplextashtic.Client
open Multiplextashtic.Server (clientCache Registered)
open Extractor Run

variable {E : Type} {pb : Protobuf E} {config : AppConfig} {phys : PhysicalNodeConfig}
  {failed : Option ConnectAwait} {nonce : UInt32}

/-- **A client comes to have the channels of the server.** From what has been written to a
client that connected when a channel was known, and what waits in its queue, it takes no
channel that is not the server's; once a replay has told it that its configuration is
complete, but for the one of the nodes only, it takes all of the server's. -/
theorem run_channels (hrt : pb.FromRadioRoundTrip) {before after : List Event} {peerIp : String}
    {u p : Program E} (hu : run (step pb) (start pb config phys failed nonce) before = some u)
    (hr : run (step pb) u (.server (.connect peerIp) :: after) = some p)
    (hknown : u.server.cache.channels ≠ [])
    (hstay : u.server.handlers.length ∈ p.server.registry) :
    ∃ h, p.server.handlers[u.server.handlers.length]? = some h ∧
      drain frames (output h) = (h.written.map Prod.snd, []) ∧
      (clientCache pb (h.written.map Prod.snd ++ h.queue)).channels ⊆ p.server.cache.channels ∧
      ((∃ nonce, Configured pb h nonce ∧ nonce ≠ nonceOnlyDb) →
        (clientCache pb (h.written.map Prod.snd ++ h.queue)).channels =
          p.server.cache.channels) := by
  obtain ⟨t, ht, hafter⟩ := run_cons.mp hr
  obtain ⟨hsound, hbefore⟩ := run_server hu
  have hconnect : Server.step pb u.server (.connect peerIp) = some t.server := by
    cases step_stepped ht with
    | server ha hserver => exact hserver
  have hserver := (embeds_server.run (hsound.step ht) hafter).2
  have hconnected := run_cons.mpr ⟨_, hconnect, hserver⟩
  have hregistered : Registered u.server :=
    invariant (fun s e t hreg => hreg.step) ⟨List.nodup_nil, List.forall_mem_nil _⟩ hbefore
  have hfit : (channelView pb).Fit (Server.world u.server) :=
    ⟨Server.run_capture config _ hbefore, Sorted.reached ⟨config, _, _, hbefore, rfl⟩, hknown⟩
  obtain ⟨hfit', h, hh, hview⟩ := Server.run_viewed hrt (channelView_lawful hrt)
    (Server.channelView_followed pb _) hregistered
    (Server.run_readFits hbefore) hfit hconnected
    (along_of_mem fun _ _ _ => trivial) hstay
  have hwhole := run_append.mpr ⟨_, hbefore, hconnected⟩
  obtain ⟨hsub, hall⟩ := Server.viewed_channels hfit' hview
  exact ⟨h, hh, Server.run_decodes config hwhole (List.mem_of_getElem? hh), hsub, hall⟩

def channelPayload (name : String) : Bytes :=
  wire.serializeFromRadio ⟨2, .channel ⟨0, some ⟨[1], name, 0, true, false, none⟩, 1⟩⟩

/-- The node tells of a channel, and `process_incoming` takes it. -/
def channelTold : List Event :=
  comesUp ++ [.link (.resume 0 (.chunk (frame (channelPayload "LongFast")))) 0,
    .server .processIncoming, .server .processIncoming]

/-- A client asks for the configuration. The channel is changed when it has been sent, and
the client's write task has not come to that. -/
def channelChanged : List Event :=
  .server (.client 0 (.payload (wire.serializeToRadio (.wantConfigId 69420)) 100)) ::
    List.replicate 3 (.server (.client 0 (.resumeRead false))) ++
    [.link (.resume 0 (.chunk (frame (channelPayload "MediumFast")))) 0,
      .server .processIncoming] ++
    List.replicate 9 (.server (.client 0 (.resumeRead false)))

/-- The names of the channels that a client takes from what it has been written. -/
def writtenNames (h : ClientHandler Unit) : List String :=
  (clientCache wire (h.written.map Prod.snd)).channels.map CachedChannel.name

set_option maxRecDepth 20000 in
/-- What the client has been written tells of the old channel, its queue of the new one. -/
theorem run_channels_changed : ∃ u p h,
    run (step wire) (start wire {} {} none 0x05) channelTold = some u ∧
      run (step wire) u (.server (.connect "192.168.1.50") :: channelChanged) = some p ∧
      p.server.handlers[0]? = some h ∧
      (clientCache wire (h.written.map Prod.snd ++ h.queue)).channels = p.server.cache.channels ∧
      (clientCache wire (h.written.map Prod.snd)).channels ≠ p.server.cache.channels := by
  have hbefore : (run (step wire) (start wire {} {} none 0x05) channelTold).map (fun u =>
      (u.server.handlers.length, u.server.cache.channels.map CachedChannel.name)) =
        some (0, ["LongFast"]) := by decide +kernel
  have hafter : (run (step wire) (start wire {} {} none 0x05)
      (channelTold ++ .server (.connect "192.168.1.50") :: channelChanged)).map (fun p =>
        (p.server.registry, p.server.cache.channels.map CachedChannel.name,
          p.server.handlers[0]?.map writtenNames)) =
      some ([0], ["MediumFast"], some ["LongFast"]) := by decide +kernel
  have hlast : ((run (step wire) (start wire {} {} none 0x05)
      (channelTold ++ .server (.connect "192.168.1.50") :: channelChanged)).map fun p =>
        p.server.handlers[0]?.bind fun h =>
          h.written.getLast?.map fun e => (e.1, announcement wire e.2)) =
      some (some (.request, some 69420)) := by decide +kernel
  rw [Option.map_eq_some_iff] at hbefore hafter
  obtain ⟨u, hu, hknown⟩ := hbefore
  obtain ⟨p, hp, hthen⟩ := hafter
  obtain ⟨u', hu', hr⟩ := run_append.mp hp
  cases hu.symm.trans hu'
  rw [Prod.mk.injEq] at hknown
  rw [Prod.mk.injEq, Prod.mk.injEq] at hthen
  obtain ⟨hlength, hnames⟩ := hknown
  obtain ⟨hregistry, hnames', hwritten⟩ := hthen
  rw [hp, Option.map_some, Option.some_inj] at hlast
  have hstay : u.server.handlers.length ∈ p.server.registry := by
    rw [hlength, hregistry]
    exact List.mem_singleton_self 0
  have hne : u.server.cache.channels ≠ [] := by
    intro hnil
    rw [hnil] at hnames
    cases hnames
  obtain ⟨h, hh, -, -, hall⟩ := run_channels wire_fromRadioRoundTrip hu hr hne hstay
  rw [hlength] at hh
  rw [hh, Option.map_some, Option.some_inj] at hwritten
  rw [hh, Option.bind_some] at hlast
  obtain ⟨e, he, hpair⟩ := Option.map_eq_some_iff.mp hlast
  rw [Prod.mk.injEq] at hpair
  have hconfigured : Configured wire h 69420 :=
    ⟨e, List.mem_of_getLast? he, by rw [hpair.1]; rfl, hpair.2⟩
  refine ⟨u, p, h, hu, hr, hh, hall ⟨69420, hconfigured, by decide⟩, ?_⟩
  intro heq
  rw [writtenNames, heq, hnames'] at hwritten
  simp at hwritten

end Multiplextashtic.Main

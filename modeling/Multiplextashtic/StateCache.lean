import Mathlib.Algebra.Group.Nat.Defs
import Mathlib.Data.List.Sort
import Multiplextashtic.Messages

/-! # The state cache

`state_cache.py` and the callback of `main.py` that fills it. A dictionary that
always has the same keys is a structure; a key that only some writers set is an
`Option`. -/
namespace Multiplextashtic.Cache
open Multiplextashtic.Protocol Multiplextashtic.Messages

/-! ## Text -/

def hexDigit (n : Nat) : Char := Nat.digitChar (n % 16)

/-- `f"{n:08x}"` of a 32-bit number. -/
def hex8 (n : NodeNum) : String :=
  String.ofList ((List.range 8).map fun i => hexDigit (n.toNat / 16 ^ (7 - i)))

def nodeId (num : NodeNum) : String := "!" ++ hex8 num

theorem hexDigit_inj {a b : Nat} (h : hexDigit a = hexDigit b) : a % 16 = b % 16 := by
  have hdigits : ∀ a < 16, ∀ b < 16, Nat.digitChar a = Nat.digitChar b → a = b := by decide
  exact hdigits _ (Nat.mod_lt _ (by decide)) _ (Nat.mod_lt _ (by decide)) h

/-- Different nodes have different ids. -/
theorem nodeId_injective : Function.Injective nodeId := by
  intro a b h
  have hdigits := List.map_inj_left.mp (String.ofList_injective (String.append_right_inj _ |>.mp h))
  have hmod (n : Nat) (hn : n ≤ 8) : a.toNat % 16 ^ n = b.toNat % 16 ^ n := by
    induction n with
    | zero => rw [Nat.pow_zero, Nat.mod_one, Nat.mod_one]
    | succ n ih =>
      have hdigit := hexDigit_inj (hdigits (7 - n) (List.mem_range.mpr (by omega)))
      rw [Nat.sub_sub_self (by omega)] at hdigit
      rw [Nat.mod_pow_succ, Nat.mod_pow_succ, ih (by omega), hdigit]
  have h8 := hmod 8 (Nat.le_refl 8)
  rw [Nat.mod_eq_of_lt (show a.toNat < 16 ^ 8 from a.toNat_lt),
    Nat.mod_eq_of_lt (show b.toNat < 16 ^ 8 from b.toNat_lt)] at h8
  exact UInt32.toNat_inj.mp h8

/-! ## Cached records -/

structure CachedUser where
  id : String
  longName : String
  shortName : String
  hwModel : Int32
  role : Option Int32
  publicKey : Option Bytes
  deriving DecidableEq, Repr

structure CachedMetrics where
  batteryLevel : UInt32
  voltage : FloatBits
  channelUtilization : FloatBits
  airUtilTx : FloatBits
  deriving DecidableEq, Repr

structure CachedPosition where
  latitudeI : Int32
  longitudeI : Int32
  altitude : Int32
  time : UInt32
  deriving DecidableEq, Repr

/-- A NODEINFO_APP packet sets none of the optional keys. -/
structure CachedNode where
  num : NodeNum
  user : CachedUser
  lastHeard : UInt32
  snr : FloatBits
  hopsAway : UInt32
  viaMqtt : Bool
  isFavorite : Option Bool
  isIgnored : Option Bool
  deviceMetrics : Option CachedMetrics
  position : Option CachedPosition
  deriving DecidableEq, Repr

structure CachedChannel where
  index : Int32
  role : Int32
  name : String
  psk : Bytes
  uplinkEnabled : Bool
  downlinkEnabled : Bool
  deriving DecidableEq, Repr

/-- The mock node sets only the first two keys. -/
structure CachedMyInfo where
  myNodeNum : NodeNum
  rebootCount : UInt32
  minAppVersion : Option UInt32
  deviceId : Option Bytes
  firmwareEdition : Option Int32
  nodedbCount : Option UInt32
  deriving DecidableEq, Repr

/-- `knownNodes` stands in insertion order, one entry a number. -/
@[ext]
structure StateCache where
  myNodeNum : NodeNum := 0
  myInfo : Option CachedMyInfo := none
  nodeInfo : Option CachedNode := none
  channels : List CachedChannel := []
  knownNodes : List (NodeNum × CachedNode) := []
  deriving DecidableEq, Repr

/-! ## Updates -/

def updateMyInfo (cache : StateCache) (myInfo : CachedMyInfo) : StateCache :=
  { cache with myInfo := some myInfo, myNodeNum := myInfo.myNodeNum }

def updateNodeInfo (cache : StateCache) (nodeInfo : CachedNode) : StateCache :=
  { cache with nodeInfo := some nodeInfo }

def sortChannels (channels : List CachedChannel) : List CachedChannel :=
  channels.insertionSort fun a b => a.index ≤ b.index

def updateChannel (cache : StateCache) (channel : CachedChannel) : StateCache :=
  match cache.channels.findIdx? fun c => c.index == channel.index with
  | some existing => { cache with channels := sortChannels (cache.channels.set existing channel) }
  | none => { cache with channels := sortChannels (cache.channels ++ [channel]) }

def updateKnownNode (cache : StateCache) (nodeInfo : CachedNode) : StateCache :=
  match cache.knownNodes.findIdx? fun e => e.1 == nodeInfo.num with
  | some existing =>
    { cache with knownNodes := cache.knownNodes.set existing (nodeInfo.num, nodeInfo) }
  | none => { cache with knownNodes := cache.knownNodes ++ [(nodeInfo.num, nodeInfo)] }

/-- The psk of the first channel whose role is PRIMARY. -/
def getPrimaryChannelPsk (cache : StateCache) : Option Bytes :=
  (cache.channels.find? fun ch => ch.role = 1).map (·.psk)

/-! ## `_update_cache` -/

def orElse (s default : String) : String := if s = "" then default else s

/-- The user of a cached node, with the defaults for what is empty. -/
def cachedUser (num : NodeNum) (user : User) : CachedUser where
  id := orElse user.id (nodeId num)
  longName := orElse user.longName "Unknown"
  shortName := orElse user.shortName "????"
  hwModel := user.hwModel
  role := if user.role = 0 then none else some user.role
  publicKey := if user.publicKey = [] then none else some user.publicKey

def emptyUser : User := ⟨"", "", "", 0, 0, []⟩

/-- A submessage that is not set reads as its defaults. -/
def cachedNodeInfo (ni : NodeInfo) : CachedNode where
  num := ni.num
  user := cachedUser ni.num (ni.user.getD emptyUser)
  lastHeard := ni.lastHeard
  snr := ni.snr
  hopsAway := ni.hopsAway.getD 0
  viaMqtt := ni.viaMqtt
  isFavorite := some ni.isFavorite
  isIgnored := some ni.isIgnored
  deviceMetrics :=
    let m := ni.deviceMetrics.getD ⟨none, none, none, none⟩
    some ⟨m.batteryLevel.getD 0, m.voltage.getD 0, m.channelUtilization.getD 0, m.airUtilTx.getD 0⟩
  position :=
    let p := ni.position.getD ⟨none, none, none, 0⟩
    some ⟨p.latitudeI.getD 0, p.longitudeI.getD 0, p.altitude.getD 0, p.time⟩

def cachedChannel (ch : Channel) : CachedChannel :=
  let settings := ch.settings.getD ⟨[], "", 0, false, false, none⟩
  ⟨ch.index, ch.role, settings.name, settings.psk, settings.uplinkEnabled, settings.downlinkEnabled⟩

variable {E : Type}

/-- What a NODEINFO_APP packet says about the node it comes from. -/
def packetNodeInfo (packet : MeshPacket E) (user : User) : CachedNode where
  num := packet.fromNode
  user := cachedUser packet.fromNode user
  lastHeard := packet.rxTime
  snr := packet.rxSnr
  hopsAway := UInt32.ofNat (3 - packet.hopLimit.toNat)
  viaMqtt := packet.viaMqtt
  isFavorite := none
  isIgnored := none
  deviceMetrics := none
  position := none

/-- A known node, which is also the own one when it has the own number. -/
def noteNode (cache : StateCache) (node : CachedNode) : StateCache :=
  let cache := updateKnownNode cache node
  if node.num = cache.myNodeNum then updateNodeInfo cache node else cache

def updateCache (pb : Protobuf E) (cache : StateCache) (fromRadioBytes : Bytes) : StateCache :=
  match pb.parseFromRadio fromRadioBytes with
  | none => cache
  | some fr =>
    match fr.variant with
    | .nodeInfo ni => noteNode cache (cachedNodeInfo ni)
    | .channel ch => updateChannel cache (cachedChannel ch)
    | .packet packet =>
      if packet.portnum = nodeinfoApp then
        match pb.parseUser packet.payload with
        | none => cache
        | some user => if user.id = "" then cache else noteNode cache (packetNodeInfo packet user)
      else cache
    | _ => cache

end Multiplextashtic.Cache

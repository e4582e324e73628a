import Multiplextashtic.Protocol

/-! # The messages of `meshtastic.protobuf`

The fields of each message that the program reads or writes. What it never
looks at in a packet travels with it as `extra`, of any type `E`. A field with
presence is an `Option`; a float is the bit pattern of its 32-bit value. The
serializer itself is a parameter (`Protobuf`): each result names what it relies
on, from the laws at the end. -/
namespace Multiplextashtic.Messages
open Multiplextashtic.Protocol

abbrev NodeNum := UInt32
/-- A float by its bits. Python reads it into 64 bits and writes it back: the bits are
the same again, except that a signalling NaN comes back quiet. -/
abbrev FloatBits := UInt32
/-- An open enum: any int32 can arrive. -/
abbrev PortNum := Int32

def nodeinfoApp : PortNum := 4
def routingApp : PortNum := 5
def adminApp : PortNum := 6

/-! ## Packets -/

structure Data (E : Type) where
  portnum : PortNum
  payload : Bytes
  extra : E
  deriving DecidableEq, Repr

inductive PayloadVariant (E : Type) where
  | unset
  | decoded (data : Data E)
  | encrypted (bytes : Bytes)
  deriving DecidableEq, Repr

structure MeshPacket (E : Type) where
  fromNode : NodeNum
  toNode : NodeNum
  id : UInt32
  payloadVariant : PayloadVariant E
  rxTime : UInt32
  rxSnr : FloatBits
  hopLimit : UInt32
  viaMqtt : Bool
  publicKey : Bytes
  pkiEncrypted : Bool
  extra : E
  deriving DecidableEq, Repr

variable {E : Type}

/-- `packet.decoded.portnum`, 0 where `decoded` is not set. -/
def MeshPacket.portnum (p : MeshPacket E) : PortNum :=
  match p.payloadVariant with
  | .decoded data => data.portnum
  | _ => 0

/-- `packet.decoded.payload`, empty where `decoded` is not set. -/
def MeshPacket.payload (p : MeshPacket E) : Bytes :=
  match p.payloadVariant with
  | .decoded data => data.payload
  | _ => []

/-- The `payload_variant` of a ToRadio. -/
inductive ToRadio (E : Type) where
  | unset
  | packet (p : MeshPacket E)
  | wantConfigId (nonce : UInt32)
  | disconnect (value : Bool)
  | heartbeat
  | other (extra : E)
  deriving DecidableEq, Repr

def ToRadio.nonce : ToRadio E → UInt32
  | .wantConfigId n => n
  | _ => 0

def ToRadio.disconnects : ToRadio E → Bool
  | .disconnect b => b
  | _ => false

/-- The `payload_variant` of an AdminMessage: the queries `get_*_request` and the
other commands by field number, apart from the two the router looks for. -/
inductive AdminMessage where
  | unset
  | getRequest (field : Nat)
  | removeByNodenum (num : NodeNum)
  | addContact
  | command (field : Nat)
  deriving DecidableEq, Repr

inductive RoutingError where
  | none
  deriving DecidableEq, Repr

/-- The attributes assigned to a Routing message. -/
structure Routing where
  requestId : Option UInt32
  errorReason : Option RoutingError
  deriving DecidableEq, Repr

/-! ## What the node reports about itself -/

structure User where
  id : String
  longName : String
  shortName : String
  hwModel : Int32
  role : Int32
  publicKey : Bytes
  deriving DecidableEq, Repr

structure Position where
  latitudeI : Option Int32
  longitudeI : Option Int32
  altitude : Option Int32
  time : UInt32
  deriving DecidableEq, Repr

structure DeviceMetrics where
  batteryLevel : Option UInt32
  voltage : Option FloatBits
  channelUtilization : Option FloatBits
  airUtilTx : Option FloatBits
  deriving DecidableEq, Repr

structure NodeInfo where
  num : NodeNum
  user : Option User
  position : Option Position
  snr : FloatBits
  lastHeard : UInt32
  deviceMetrics : Option DeviceMetrics
  viaMqtt : Bool
  hopsAway : Option UInt32
  isFavorite : Bool
  isIgnored : Bool
  deriving DecidableEq, Repr

structure MyNodeInfo where
  myNodeNum : NodeNum
  rebootCount : UInt32
  minAppVersion : UInt32
  deviceId : Bytes
  firmwareEdition : Int32
  nodedbCount : UInt32
  deriving DecidableEq, Repr

structure DeviceMetadata where
  firmwareVersion : String
  deviceStateVersion : UInt32
  canShutdown : Bool
  hasWifi : Bool
  hasBluetooth : Bool
  hasEthernet : Bool
  role : Int32
  positionFlags : UInt32
  deriving DecidableEq, Repr

structure ModuleSettings where
  positionPrecision : UInt32
  isClientMuted : Bool
  deriving DecidableEq, Repr

structure ChannelSettings where
  psk : Bytes
  name : String
  id : UInt32
  uplinkEnabled : Bool
  downlinkEnabled : Bool
  moduleSettings : Option ModuleSettings
  deriving DecidableEq, Repr

structure Channel where
  index : Int32
  settings : Option ChannelSettings
  role : Int32
  deriving DecidableEq, Repr

/-- A Config with the section it selects: one of those the program builds, with the
fields it sets and what else the section holds, or any other by its number. -/
inductive Config where
  | unset
  | device (role : Int32) (serialEnabled : Bool) (rest : Bytes)
  | network (wifiEnabled ethEnabled : Bool) (rest : Bytes)
  | display (screenOnSecs : UInt32) (units : Int32) (rest : Bytes)
  | lora (usePreset : Bool) (modemPreset region : Int32) (hopLimit : UInt32) (txPower : Int32)
      (rest : Bytes)
  | other (number : UInt32) (fields : Bytes)
  deriving DecidableEq, Repr

inductive ModuleConfig where
  | unset
  | mqtt (enabled : Bool) (rest : Bytes)
  | telemetry (deviceUpdateInterval environmentUpdateInterval airQualityInterval : UInt32)
      (rest : Bytes)
  | other (number : UInt32) (fields : Bytes)
  deriving DecidableEq, Repr

structure QueueStatus where
  res : Int32
  free : UInt32
  maxlen : UInt32
  meshPacketId : UInt32
  deriving DecidableEq, Repr

/-- The `payload_variant` of a FromRadio. -/
inductive FromRadioVariant (E : Type) where
  | unset
  | packet (p : MeshPacket E)
  | myInfo (info : MyNodeInfo)
  | nodeInfo (info : NodeInfo)
  | config (config : Config)
  | configCompleteId (nonce : UInt32)
  | moduleConfig (config : ModuleConfig)
  | channel (channel : Channel)
  | queueStatus (status : QueueStatus)
  | metadata (metadata : DeviceMetadata)
  deriving DecidableEq, Repr

structure FromRadio (E : Type) where
  id : UInt32
  variant : FromRadioVariant E
  deriving DecidableEq, Repr

def FromRadio.configComplete? (fr : FromRadio E) : Option UInt32 :=
  match fr.variant with
  | .configCompleteId nonce => some nonce
  | _ => none

/-! ## The serializer -/

/-- `meshtastic.protobuf` as the program uses it: `ParseFromString` (`none` where
it raises), `SerializeToString`, the field names the Routing message declares,
and the unread fields of a message built from nothing. -/
structure Protobuf (E : Type) where
  parseToRadio : Bytes → Option (ToRadio E)
  serializeToRadio : ToRadio E → Bytes
  parseFromRadio : Bytes → Option (FromRadio E)
  serializeFromRadio : FromRadio E → Bytes
  parseAdminMessage : Bytes → Option AdminMessage
  parseUser : Bytes → Option User
  serializeRouting : Routing → Bytes
  routingFields : List String
  noExtra : E

namespace Protobuf
variable (pb : Protobuf E)

/-- Parsing a serialized ToRadio gives the message back. -/
def ToRadioRoundTrip : Prop := ∀ m, pb.parseToRadio (pb.serializeToRadio m) = some m

/-- Parsing a serialized FromRadio gives the message back. -/
def FromRadioRoundTrip : Prop := ∀ m, pb.parseFromRadio (pb.serializeFromRadio m) = some m

/-- No bytes are the AdminMessage that selects nothing. -/
def EmptyAdminMessage : Prop := pb.parseAdminMessage [] = some .unset

/-- Routing declares its oneof and nothing else. -/
def RoutingOneof : Prop := pb.routingFields = ["route_request", "route_reply", "error_reason"]

/-- The length of a varint of `n`. -/
def varintSize (n : Nat) : Nat := n.log2 / 7 + 1

/-- The size of `FromRadio.id`: nothing when it is zero, else a tag and a varint. -/
def idSize (id : UInt32) : Nat := if id = 0 then 0 else 1 + varintSize id.toNat

/-- The standard wire size of a request for the config: a tag and a varint. -/
def WantConfigSize : Prop := ∀ nonce,
  (pb.serializeToRadio (.wantConfigId nonce)).length = 1 + varintSize nonce.toNat

/-- The standard wire sizes of a FromRadio that carries a packet, given the size
of each packet: a length-delimited field, and 5 bytes for a non-zero `from`. -/
structure PacketSizes (size : MeshPacket E → Nat) : Prop where
  fromRadio : ∀ id p, (pb.serializeFromRadio ⟨id, .packet p⟩).length =
    idSize id + (1 + varintSize (size p) + size p)
  setFrom : ∀ p n, p.fromNode = 0 → n ≠ 0 → size { p with fromNode := n } = size p + 5

end Protobuf
end Multiplextashtic.Messages

import Multiplextashtic.Lib.Wire
import Multiplextashtic.Messages

/-! # The messages on the wire

A serializer in the protobuf wire format with the field numbers of the
meshtastic schema, for messages without unread fields. It satisfies the laws the
results name. -/
namespace Multiplextashtic.Messages
open Wire

/-! ## Submessages -/

def sub (slots : List Slot) : Value := .len (message slots)

/-- A submessage with presence, `none` where its bytes do not parse. -/
def subOf {α : Type} (read : List Field → Option α) : Option Value → Option (Option α)
  | some (.len b) => ((parse b).bind read).map some
  | _ => some none

@[simp] theorem subOf_none {α : Type} (read : List Field → Option α) :
    subOf read none = some none := rfl

@[simp] theorem subOf_sub {α : Type} (read : List Field → Option α) (slots : List Slot) :
    subOf read (some (sub slots)) = (read (fields slots)).map some := by
  simp [subOf, sub, message]

theorem subOf_map {α : Type} {read : List Field → Option α} {slots : α → List Slot}
    (h : ∀ a, read (fields (slots a)) = some a) (o : Option α) :
    subOf read (o.map fun a => sub (slots a)) = some o := by
  cases o <;> simp [h]

/-! ## Packets -/

def dataSlots (d : Data Unit) : List Slot := [(1, i32 d.portnum), (2, bytes d.payload)]

def readData (fs : List Field) : Option (Data Unit) :=
  some ⟨i32Of (last 1 fs), bytesOf (last 2 fs), ()⟩

@[simp] theorem readData_slots (d : Data Unit) : readData (fields (dataSlots d)) = some d := by
  simp [readData, dataSlots, slotOf]

def payloadSlots : PayloadVariant Unit → List Slot
  | .unset => []
  | .decoded d => [(4, some (sub (dataSlots d)))]
  | .encrypted b => [(5, some (.len b))]

def readPayload (fs : List Field) : Option (PayloadVariant Unit) :=
  match lastOf [4, 5] fs with
  | some (4, .len b) => ((parse b).bind readData).map .decoded
  | some (5, .len b) => some (.encrypted b)
  | _ => some .unset

def packetSlots (p : MeshPacket Unit) : List Slot :=
  (1, f32 p.fromNode) :: (2, f32 p.toNode) :: payloadSlots p.payloadVariant ++
    [(6, f32 p.id), (7, f32 p.rxTime), (8, f32 p.rxSnr), (9, u32 p.hopLimit), (14, bool p.viaMqtt),
      (16, bytes p.publicKey), (17, bool p.pkiEncrypted)]

def readPacket (fs : List Field) : Option (MeshPacket Unit) :=
  (readPayload fs).map fun v =>
    ⟨f32Of (last 1 fs), f32Of (last 2 fs), f32Of (last 6 fs), v, f32Of (last 7 fs),
      f32Of (last 8 fs), u32Of (last 9 fs), boolOf (last 14 fs), bytesOf (last 16 fs),
      boolOf (last 17 fs), ()⟩

@[simp] theorem readPacket_slots (p : MeshPacket Unit) :
    readPacket (fields (packetSlots p)) = some p := by
  obtain ⟨_, _, _, v, _, _, _, _, _, _, _⟩ := p
  cases v <;> simp [readPacket, packetSlots, payloadSlots, readPayload, slotOf, sub, message]

def toRadioSlots : ToRadio Unit → List Slot
  | .unset => []
  | .packet p => [(1, some (sub (packetSlots p)))]
  | .wantConfigId n => [(3, some (.varint n.toNat))]
  | .disconnect b => [(4, some (.varint b.toNat))]
  | .other _ => [(5, some (.len []))]
  | .heartbeat => [(7, some (.len []))]

def readToRadio (fs : List Field) : Option (ToRadio Unit) :=
  match lastOf [1, 3, 4, 5, 6, 7] fs with
  | some (1, .len b) => ((parse b).bind readPacket).map .packet
  | some (3, .varint n) => some (.wantConfigId (UInt32.ofNat n))
  | some (4, .varint n) => some (.disconnect (n != 0))
  | some (5, .len _) => some (.other ())
  | some (6, .len _) => some (.other ())
  | some (7, .len _) => some .heartbeat
  | _ => some .unset

@[simp] theorem readToRadio_slots (m : ToRadio Unit) :
    readToRadio (fields (toRadioSlots m)) = some m := by
  cases m with
  | disconnect b => cases b <;> simp [readToRadio, toRadioSlots, slotOf]
  | _ => simp [readToRadio, toRadioSlots, slotOf, sub, message]

/-! ## Admin messages -/

/-- The field numbers of the queries `get_*_request`. -/
def getRequestFields : List Nat := [1, 3, 5, 7, 10, 12, 14, 16, 19, 44]

/-- `session_passkey`, the one field outside the oneof. -/
def sessionPasskeyField : Nat := 101

def readAdminMessage (fs : List Field) : AdminMessage :=
  match (fs.filter fun f => f.1 != sessionPasskeyField).getLast? with
  | some (38, .varint n) => .removeByNodenum (UInt32.ofNat n)
  | some (66, .len _) => .addContact
  | some (num, _) => if num ∈ getRequestFields then .getRequest num else .command num
  | none => .unset

def routingSlots (r : Routing) : List Slot := [(3, r.errorReason.map fun .none => .varint 0)]

/-! ## What the node reports about itself -/

def userSlots (u : User) : List Slot :=
  [(1, str u.id), (2, str u.longName), (3, str u.shortName), (5, i32 u.hwModel), (7, i32 u.role),
    (8, bytes u.publicKey)]

def readUser (fs : List Field) : Option User := do
  let id ← strOf (last 1 fs)
  let longName ← strOf (last 2 fs)
  let shortName ← strOf (last 3 fs)
  return ⟨id, longName, shortName, i32Of (last 5 fs), i32Of (last 7 fs), bytesOf (last 8 fs)⟩

@[simp] theorem readUser_slots (u : User) : readUser (fields (userSlots u)) = some u := by
  simp [readUser, userSlots, slotOf]

def positionSlots (p : Position) : List Slot :=
  [(1, someSF32 p.latitudeI), (2, someSF32 p.longitudeI), (3, someI32 p.altitude), (4, f32 p.time)]

def readPosition (fs : List Field) : Option Position :=
  some ⟨someSF32Of (last 1 fs), someSF32Of (last 2 fs), someI32Of (last 3 fs), f32Of (last 4 fs)⟩

@[simp] theorem readPosition_slots (p : Position) :
    readPosition (fields (positionSlots p)) = some p := by
  simp [readPosition, positionSlots, slotOf]

def metricsSlots (m : DeviceMetrics) : List Slot :=
  [(1, someU32 m.batteryLevel), (2, someF32 m.voltage), (3, someF32 m.channelUtilization),
    (4, someF32 m.airUtilTx)]

def readMetrics (fs : List Field) : Option DeviceMetrics :=
  some ⟨someU32Of (last 1 fs), someF32Of (last 2 fs), someF32Of (last 3 fs), someF32Of (last 4 fs)⟩

@[simp] theorem readMetrics_slots (m : DeviceMetrics) :
    readMetrics (fields (metricsSlots m)) = some m := by
  simp [readMetrics, metricsSlots, slotOf]

def nodeInfoSlots (n : NodeInfo) : List Slot :=
  [(1, u32 n.num), (2, n.user.map fun u => sub (userSlots u)),
    (3, n.position.map fun p => sub (positionSlots p)), (4, f32 n.snr), (5, f32 n.lastHeard),
    (6, n.deviceMetrics.map fun m => sub (metricsSlots m)), (8, bool n.viaMqtt),
    (9, someU32 n.hopsAway), (10, bool n.isFavorite), (11, bool n.isIgnored)]

def readNodeInfo (fs : List Field) : Option NodeInfo := do
  let user ← subOf readUser (last 2 fs)
  let position ← subOf readPosition (last 3 fs)
  let metrics ← subOf readMetrics (last 6 fs)
  return ⟨u32Of (last 1 fs), user, position, f32Of (last 4 fs), f32Of (last 5 fs), metrics,
    boolOf (last 8 fs), someU32Of (last 9 fs), boolOf (last 10 fs), boolOf (last 11 fs)⟩

@[simp] theorem readNodeInfo_slots (n : NodeInfo) :
    readNodeInfo (fields (nodeInfoSlots n)) = some n := by
  simp [readNodeInfo, nodeInfoSlots, slotOf, Function.comp_def, subOf_map readUser_slots,
    subOf_map readPosition_slots, subOf_map readMetrics_slots]

def myInfoSlots (m : MyNodeInfo) : List Slot :=
  [(1, u32 m.myNodeNum), (8, u32 m.rebootCount), (11, u32 m.minAppVersion), (12, bytes m.deviceId),
    (14, i32 m.firmwareEdition), (15, u32 m.nodedbCount)]

def readMyInfo (fs : List Field) : Option MyNodeInfo :=
  some ⟨u32Of (last 1 fs), u32Of (last 8 fs), u32Of (last 11 fs), bytesOf (last 12 fs),
    i32Of (last 14 fs), u32Of (last 15 fs)⟩

@[simp] theorem readMyInfo_slots (m : MyNodeInfo) :
    readMyInfo (fields (myInfoSlots m)) = some m := by
  simp [readMyInfo, myInfoSlots, slotOf]

def metadataSlots (m : DeviceMetadata) : List Slot :=
  [(1, str m.firmwareVersion), (2, u32 m.deviceStateVersion), (3, bool m.canShutdown),
    (4, bool m.hasWifi), (5, bool m.hasBluetooth), (6, bool m.hasEthernet), (7, i32 m.role),
    (8, u32 m.positionFlags)]

def readMetadata (fs : List Field) : Option DeviceMetadata := do
  let version ← strOf (last 1 fs)
  return ⟨version, u32Of (last 2 fs), boolOf (last 3 fs), boolOf (last 4 fs), boolOf (last 5 fs),
    boolOf (last 6 fs), i32Of (last 7 fs), u32Of (last 8 fs)⟩

@[simp] theorem readMetadata_slots (m : DeviceMetadata) :
    readMetadata (fields (metadataSlots m)) = some m := by
  simp [readMetadata, metadataSlots, slotOf]

def moduleSettingsSlots (m : ModuleSettings) : List Slot :=
  [(1, u32 m.positionPrecision), (2, bool m.isClientMuted)]

def readModuleSettings (fs : List Field) : Option ModuleSettings :=
  some ⟨u32Of (last 1 fs), boolOf (last 2 fs)⟩

@[simp] theorem readModuleSettings_slots (m : ModuleSettings) :
    readModuleSettings (fields (moduleSettingsSlots m)) = some m := by
  simp [readModuleSettings, moduleSettingsSlots, slotOf]

def settingsSlots (s : ChannelSettings) : List Slot :=
  [(2, bytes s.psk), (3, str s.name), (4, f32 s.id), (5, bool s.uplinkEnabled),
    (6, bool s.downlinkEnabled), (7, s.moduleSettings.map fun m => sub (moduleSettingsSlots m))]

def readSettings (fs : List Field) : Option ChannelSettings := do
  let name ← strOf (last 3 fs)
  let moduleSettings ← subOf readModuleSettings (last 7 fs)
  return ⟨bytesOf (last 2 fs), name, f32Of (last 4 fs), boolOf (last 5 fs), boolOf (last 6 fs),
    moduleSettings⟩

@[simp] theorem readSettings_slots (s : ChannelSettings) :
    readSettings (fields (settingsSlots s)) = some s := by
  simp [readSettings, settingsSlots, slotOf, Function.comp_def, subOf_map readModuleSettings_slots]

def channelSlots (c : Channel) : List Slot :=
  [(1, i32 c.index), (2, c.settings.map fun s => sub (settingsSlots s)), (3, i32 c.role)]

def readChannel (fs : List Field) : Option Channel :=
  (subOf readSettings (last 2 fs)).map fun settings =>
    ⟨i32Of (last 1 fs), settings, i32Of (last 3 fs)⟩

@[simp] theorem readChannel_slots (c : Channel) :
    readChannel (fields (channelSlots c)) = some c := by
  simp [readChannel, channelSlots, slotOf, Function.comp_def, subOf_map readSettings_slots]

/-- A section the program does not build goes under a number that none has. -/
def configSlots : Config → List Slot
  | .unset => []
  | .device role serialEnabled rest =>
    [(1, some (sub [(1, i32 role), (2, bool serialEnabled), (15, bytes rest)]))]
  | .network wifi eth rest => [(4, some (sub [(1, bool wifi), (6, bool eth), (15, bytes rest)]))]
  | .display secs units rest => [(5, some (sub [(1, u32 secs), (6, i32 units), (15, bytes rest)]))]
  | .lora usePreset preset region hopLimit txPower rest =>
    [(6, some (sub [(1, bool usePreset), (2, i32 preset), (7, i32 region), (8, u32 hopLimit),
      (10, i32 txPower), (15, bytes rest)]))]
  | .other number fields => [(15, some (sub [(1, u32 number), (2, bytes fields)]))]

def readConfig (fs : List Field) : Option Config :=
  match lastOf [1, 2, 3, 4, 5, 6, 7, 15] fs with
  | some (1, .len b) => (parse b).map fun s =>
    .device (i32Of (last 1 s)) (boolOf (last 2 s)) (bytesOf (last 15 s))
  | some (4, .len b) => (parse b).map fun s =>
    .network (boolOf (last 1 s)) (boolOf (last 6 s)) (bytesOf (last 15 s))
  | some (5, .len b) => (parse b).map fun s =>
    .display (u32Of (last 1 s)) (i32Of (last 6 s)) (bytesOf (last 15 s))
  | some (6, .len b) => (parse b).map fun s =>
    .lora (boolOf (last 1 s)) (i32Of (last 2 s)) (i32Of (last 7 s)) (u32Of (last 8 s))
      (i32Of (last 10 s)) (bytesOf (last 15 s))
  | some (15, .len b) => (parse b).map fun s => .other (u32Of (last 1 s)) (bytesOf (last 2 s))
  | _ => some .unset

@[simp] theorem readConfig_slots (c : Config) : readConfig (fields (configSlots c)) = some c := by
  cases c <;> simp [readConfig, configSlots, slotOf, sub, message]

def moduleConfigSlots : ModuleConfig → List Slot
  | .unset => []
  | .mqtt enabled rest => [(1, some (sub [(1, bool enabled), (15, bytes rest)]))]
  | .telemetry device environment airQuality rest =>
    [(6, some (sub [(1, u32 device), (2, u32 environment), (7, u32 airQuality),
      (15, bytes rest)]))]
  | .other number fields => [(15, some (sub [(1, u32 number), (2, bytes fields)]))]

def readModuleConfig (fs : List Field) : Option ModuleConfig :=
  match lastOf [1, 6, 15] fs with
  | some (1, .len b) => (parse b).map fun s => .mqtt (boolOf (last 1 s)) (bytesOf (last 15 s))
  | some (6, .len b) => (parse b).map fun s =>
    .telemetry (u32Of (last 1 s)) (u32Of (last 2 s)) (u32Of (last 7 s)) (bytesOf (last 15 s))
  | some (15, .len b) => (parse b).map fun s => .other (u32Of (last 1 s)) (bytesOf (last 2 s))
  | _ => some .unset

@[simp] theorem readModuleConfig_slots (c : ModuleConfig) :
    readModuleConfig (fields (moduleConfigSlots c)) = some c := by
  cases c <;> simp [readModuleConfig, moduleConfigSlots, slotOf, sub, message]

def queueStatusSlots (q : QueueStatus) : List Slot :=
  [(1, i32 q.res), (2, u32 q.free), (3, u32 q.maxlen), (4, u32 q.meshPacketId)]

def readQueueStatus (fs : List Field) : Option QueueStatus :=
  some ⟨i32Of (last 1 fs), u32Of (last 2 fs), u32Of (last 3 fs), u32Of (last 4 fs)⟩

@[simp] theorem readQueueStatus_slots (q : QueueStatus) :
    readQueueStatus (fields (queueStatusSlots q)) = some q := by
  simp [readQueueStatus, queueStatusSlots, slotOf]

def variantSlots : FromRadioVariant Unit → List Slot
  | .unset => []
  | .packet p => [(2, some (sub (packetSlots p)))]
  | .myInfo m => [(3, some (sub (myInfoSlots m)))]
  | .nodeInfo n => [(4, some (sub (nodeInfoSlots n)))]
  | .config c => [(5, some (sub (configSlots c)))]
  | .configCompleteId n => [(7, some (.varint n.toNat))]
  | .moduleConfig c => [(9, some (sub (moduleConfigSlots c)))]
  | .channel c => [(10, some (sub (channelSlots c)))]
  | .queueStatus q => [(11, some (sub (queueStatusSlots q)))]
  | .metadata m => [(13, some (sub (metadataSlots m)))]

def fromRadioSlots (fr : FromRadio Unit) : List Slot := (1, u32 fr.id) :: variantSlots fr.variant

def readVariant (fs : List Field) : Option (FromRadioVariant Unit) :=
  match lastOf [2, 3, 4, 5, 6, 7, 8, 9, 10, 11, 12, 13] fs with
  | some (2, .len b) => ((parse b).bind readPacket).map .packet
  | some (3, .len b) => ((parse b).bind readMyInfo).map .myInfo
  | some (4, .len b) => ((parse b).bind readNodeInfo).map .nodeInfo
  | some (5, .len b) => ((parse b).bind readConfig).map .config
  | some (7, .varint n) => some (.configCompleteId (UInt32.ofNat n))
  | some (9, .len b) => ((parse b).bind readModuleConfig).map .moduleConfig
  | some (10, .len b) => ((parse b).bind readChannel).map .channel
  | some (11, .len b) => ((parse b).bind readQueueStatus).map .queueStatus
  | some (13, .len b) => ((parse b).bind readMetadata).map .metadata
  | _ => some .unset

def readFromRadio (fs : List Field) : Option (FromRadio Unit) :=
  (readVariant fs).map fun v => ⟨u32Of (last 1 fs), v⟩

@[simp] theorem readFromRadio_slots (fr : FromRadio Unit) :
    readFromRadio (fields (fromRadioSlots fr)) = some fr := by
  obtain ⟨id, v⟩ := fr
  cases v <;> simp [readFromRadio, fromRadioSlots, variantSlots, readVariant, slotOf, sub, message]

/-! ## The serializer -/

def wire : Protobuf Unit where
  parseToRadio bs := (parse bs).bind readToRadio
  serializeToRadio m := message (toRadioSlots m)
  parseFromRadio bs := (parse bs).bind readFromRadio
  serializeFromRadio m := message (fromRadioSlots m)
  parseAdminMessage bs := (parse bs).map readAdminMessage
  parseUser bs := (parse bs).bind readUser
  serializeRouting r := message (routingSlots r)
  routingFields := ["route_request", "route_reply", "error_reason"]
  noExtra := ()

theorem wire_toRadioRoundTrip : wire.ToRadioRoundTrip := fun m => by simp [wire, message]

theorem wire_fromRadioRoundTrip : wire.FromRadioRoundTrip := fun m => by simp [wire, message]

theorem wire_wantConfigSize : wire.WantConfigSize := by
  intro nonce
  show (message [(3, some (.varint nonce.toNat))]).length = _
  rw [message_cons_some, List.length_append,
    encodeField_varint_length (show (3 * 8).log2 < 7 by decide)]
  rfl

theorem wire_emptyAdminMessage : wire.EmptyAdminMessage := rfl

theorem wire_routingOneof : wire.RoutingOneof := rfl

def packetSize (p : MeshPacket Unit) : Nat := (message (packetSlots p)).length

theorem wire_packetSizes : wire.PacketSizes packetSize where
  fromRadio id p := by
    have hlen : (encodeField (2, sub (packetSlots p))).length =
        1 + Protobuf.varintSize (packetSize p) + packetSize p :=
      encodeField_len_length (by decide) _
    have hm : message [(2, some (sub (packetSlots p)))] = encodeField (2, sub (packetSlots p)) := by
      simp [message, fields, encode]
    show (message ((1, u32 id) :: [(2, some (sub (packetSlots p)))])).length = _
    by_cases h : id = 0
    · simp [h, u32, Protobuf.idSize, message_cons_none, hm, hlen]
    · simp only [u32, h, if_false, message_cons_some, List.length_append, hm, hlen, Protobuf.idSize,
        encodeField_varint_length (show (1 * 8).log2 < 7 by decide), Protobuf.varintSize]
  setFrom p n hp hn := by
    have hn' : f32 n = some (.fixed32 n) := by simp [f32, hn]
    have h0 : f32 0 = none := rfl
    simp only [packetSize, packetSlots, hp, hn', h0, List.cons_append, message_cons_none,
      message_cons_some, List.length_append,
      encodeField_fixed32_length (show (1 * 8 + 5).log2 < 7 by decide)]
    omega

end Multiplextashtic.Messages

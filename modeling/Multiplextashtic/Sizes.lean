import Multiplextashtic.Lib.Wire
import Multiplextashtic.WireMessages

/-! # Sizes on the wire

The standard protobuf sizes of the messages a replay builds. All their field
numbers are below 16, so that every tag is one byte. -/
namespace Multiplextashtic.Messages
open Multiplextashtic.Protocol Protobuf

/-! ## Fields -/

/-- A length-delimited field of `n` bytes. -/
def lenSize (n : Nat) : Nat := 1 + varintSize n + n

/-- A string or bytes field of `n` bytes, left out when empty. -/
def textSize (n : Nat) : Nat := if n = 0 then 0 else lenSize n

def strSize (s : String) : Nat := textSize s.utf8ByteSize
def u32Size (n : UInt32) : Nat := if n = 0 then 0 else 1 + varintSize n.toNat

/-- Negative numbers are written as 64-bit values. -/
def int32Size (n : Int32) : Nat := 1 + varintSize (n.toBitVec.signExtend 64).toNat

def i32Size (n : Int32) : Nat := if n = 0 then 0 else int32Size n
def fixed32Size (n : UInt32) : Nat := if n = 0 then 0 else 5
def boolSize (b : Bool) : Nat := if b then 2 else 0

/-- A field with presence. -/
def optSize {α : Type} (size : α → Nat) (o : Option α) : Nat := o.elim 0 size

/-! ## Messages -/

def User.size (u : User) : Nat :=
  strSize u.id + strSize u.longName + strSize u.shortName + i32Size u.hwModel + i32Size u.role +
    textSize u.publicKey.length

def Position.size (p : Position) : Nat :=
  optSize (fun _ => 5) p.latitudeI + optSize (fun _ => 5) p.longitudeI +
    optSize int32Size p.altitude + fixed32Size p.time

def DeviceMetrics.size (m : DeviceMetrics) : Nat :=
  optSize (fun n => 1 + varintSize n.toNat) m.batteryLevel + optSize (fun _ => 5) m.voltage +
    optSize (fun _ => 5) m.channelUtilization + optSize (fun _ => 5) m.airUtilTx

def NodeInfo.size (n : NodeInfo) : Nat :=
  u32Size n.num + optSize (fun u => lenSize u.size) n.user +
    optSize (fun p => lenSize p.size) n.position + fixed32Size n.snr + fixed32Size n.lastHeard +
    optSize (fun m => lenSize m.size) n.deviceMetrics + boolSize n.viaMqtt +
    optSize (fun h => 1 + varintSize h.toNat) n.hopsAway + boolSize n.isFavorite +
    boolSize n.isIgnored

def MyNodeInfo.size (m : MyNodeInfo) : Nat :=
  u32Size m.myNodeNum + u32Size m.rebootCount + u32Size m.minAppVersion +
    textSize m.deviceId.length + i32Size m.firmwareEdition + u32Size m.nodedbCount

def DeviceMetadata.size (m : DeviceMetadata) : Nat :=
  strSize m.firmwareVersion + u32Size m.deviceStateVersion + boolSize m.canShutdown +
    boolSize m.hasWifi + boolSize m.hasBluetooth + boolSize m.hasEthernet + i32Size m.role +
    u32Size m.positionFlags

def ModuleSettings.size (m : ModuleSettings) : Nat :=
  u32Size m.positionPrecision + boolSize m.isClientMuted

def ChannelSettings.size (s : ChannelSettings) : Nat :=
  textSize s.psk.length + strSize s.name + fixed32Size s.id + boolSize s.uplinkEnabled +
    boolSize s.downlinkEnabled + optSize (fun m => lenSize m.size) s.moduleSettings

def Channel.size (c : Channel) : Nat :=
  i32Size c.index + optSize (fun s => lenSize s.size) c.settings + i32Size c.role

/-- The size of the messages a replay builds, without the id. -/
def FromRadioVariant.size? {E : Type} : FromRadioVariant E → Option Nat
  | .myInfo info => some (lenSize info.size)
  | .nodeInfo info => some (lenSize info.size)
  | .configCompleteId nonce => some (1 + varintSize nonce.toNat)
  | .channel ch => some (lenSize ch.size)
  | .metadata md => some (lenSize md.size)
  | _ => none

/-- The standard wire sizes of these messages. -/
def Protobuf.StandardSizes {E : Type} (pb : Protobuf E) : Prop :=
  ∀ id variant n, FromRadioVariant.size? variant = some n →
    (pb.serializeFromRadio ⟨id, variant⟩).length = idSize id + n

/-! ## The wire format has them -/

open Wire

def slotSize (s : Slot) : Nat := s.2.elim 0 fun v => (encodeField (s.1, v)).length

theorem message_length (slots : List Slot) : (message slots).length = (slots.map slotSize).sum := by
  induction slots with
  | nil => rfl
  | cons s ss ih =>
    obtain ⟨num, value⟩ := s
    cases value with
    | none => simpa [message_cons_none, slotSize] using ih
    | some v => simp [message_cons_some, slotSize, ih]

theorem tag_log2 {num k : Nat} (hnum : num < 16) (hk : k < 8) : (num * 8 + k).log2 < 7 := by
  by_cases h0 : num * 8 + k = 0
  · rw [h0]; decide
  · exact (Nat.log2_lt h0).mpr (by omega)

section
variable {num : Nat} (hnum : num < 16)
include hnum

theorem slotSize_varint (n : Nat) : slotSize (num, some (.varint n)) = 1 + varintSize n :=
  encodeField_varint_length (tag_log2 hnum (k := 0) (by decide)) n

theorem slotSize_fixed32 (n : UInt32) : slotSize (num, some (.fixed32 n)) = 5 :=
  encodeField_fixed32_length (tag_log2 hnum (by decide)) n

theorem slotSize_len (b : Wire.Bytes) : slotSize (num, some (.len b)) = lenSize b.length :=
  encodeField_len_length (tag_log2 hnum (by decide)) b

theorem slotSize_u32 (n : UInt32) : slotSize (num, u32 n) = u32Size n := by
  unfold u32 u32Size
  split
  · rfl
  · exact slotSize_varint hnum _

theorem slotSize_i32 (n : Int32) : slotSize (num, i32 n) = i32Size n := by
  unfold i32 i32Size
  split
  · rfl
  · exact slotSize_varint hnum _

theorem slotSize_f32 (n : UInt32) : slotSize (num, f32 n) = fixed32Size n := by
  unfold f32 fixed32Size
  split
  · rfl
  · exact slotSize_fixed32 hnum _

theorem slotSize_bool (b : Bool) : slotSize (num, bool b) = boolSize b := by
  cases b with
  | false => rfl
  | true => exact slotSize_varint hnum 1

theorem slotSize_bytes (b : Wire.Bytes) : slotSize (num, bytes b) = textSize b.length := by
  unfold bytes textSize
  cases b with
  | nil => rfl
  | cons a b => exact slotSize_len hnum _

theorem slotSize_str (s : String) : slotSize (num, str s) = strSize s :=
  slotSize_bytes hnum _

theorem slotSize_someU32 (o : Option UInt32) :
    slotSize (num, someU32 o) = optSize (fun n => 1 + varintSize n.toNat) o := by
  cases o with
  | none => rfl
  | some n => exact slotSize_varint hnum _

theorem slotSize_someI32 (o : Option Int32) :
    slotSize (num, someI32 o) = optSize int32Size o := by
  cases o with
  | none => rfl
  | some n => exact slotSize_varint hnum _

theorem slotSize_someF32 (o : Option UInt32) :
    slotSize (num, someF32 o) = optSize (fun _ => 5) o := by
  cases o with
  | none => rfl
  | some n => exact slotSize_fixed32 hnum _

theorem slotSize_someSF32 (o : Option Int32) :
    slotSize (num, someSF32 o) = optSize (fun _ => 5) o := by
  cases o with
  | none => rfl
  | some n => exact slotSize_fixed32 hnum _

end

/-- Submessages, given the sizes of what they are written from. -/
theorem slotSize_sub {α : Type} {slots : α → List Slot} {size : α → Nat}
    (hsize : ∀ a, ((slots a).map slotSize).sum = size a) (a : α) {num : Nat} (hnum : num < 16) :
    slotSize (num, some (sub (slots a))) = lenSize (size a) := by
  rw [sub, slotSize_len hnum, message_length, hsize]

theorem slotSize_optSub {α : Type} {slots : α → List Slot} {size : α → Nat}
    (hsize : ∀ a, ((slots a).map slotSize).sum = size a) (o : Option α) {num : Nat}
    (hnum : num < 16) :
    slotSize (num, o.map fun a => sub (slots a)) = optSize (fun a => lenSize (size a)) o := by
  cases o with
  | none => rfl
  | some a => exact slotSize_sub hsize a hnum

theorem userSlots_size (u : User) : ((userSlots u).map slotSize).sum = u.size := by
  simp [userSlots, slotSize_str, slotSize_i32, slotSize_bytes, User.size, Nat.add_assoc]

theorem positionSlots_size (p : Position) : ((positionSlots p).map slotSize).sum = p.size := by
  simp [positionSlots, slotSize_someSF32, slotSize_someI32, slotSize_f32, Position.size,
    Nat.add_assoc]

theorem metricsSlots_size (m : DeviceMetrics) : ((metricsSlots m).map slotSize).sum = m.size := by
  simp [metricsSlots, slotSize_someU32, slotSize_someF32, DeviceMetrics.size, Nat.add_assoc]

theorem nodeInfoSlots_size (n : NodeInfo) : ((nodeInfoSlots n).map slotSize).sum = n.size := by
  simp [nodeInfoSlots, slotSize_u32, slotSize_f32, slotSize_bool, slotSize_someU32,
    slotSize_optSub userSlots_size,
    slotSize_optSub positionSlots_size,
    slotSize_optSub metricsSlots_size, NodeInfo.size,
    Nat.add_assoc]

theorem myInfoSlots_size (m : MyNodeInfo) : ((myInfoSlots m).map slotSize).sum = m.size := by
  simp [myInfoSlots, slotSize_u32, slotSize_i32, slotSize_bytes, MyNodeInfo.size, Nat.add_assoc]

theorem metadataSlots_size (m : DeviceMetadata) :
    ((metadataSlots m).map slotSize).sum = m.size := by
  simp [metadataSlots, slotSize_str, slotSize_u32, slotSize_i32, slotSize_bool,
    DeviceMetadata.size, Nat.add_assoc]

theorem moduleSettingsSlots_size (m : ModuleSettings) :
    ((moduleSettingsSlots m).map slotSize).sum = m.size := by
  simp [moduleSettingsSlots, slotSize_u32, slotSize_bool, ModuleSettings.size]

theorem settingsSlots_size (s : ChannelSettings) :
    ((settingsSlots s).map slotSize).sum = s.size := by
  simp [settingsSlots, slotSize_bytes, slotSize_str, slotSize_f32, slotSize_bool,
    slotSize_optSub moduleSettingsSlots_size,
    ChannelSettings.size, Nat.add_assoc]

theorem channelSlots_size (c : Channel) : ((channelSlots c).map slotSize).sum = c.size := by
  simp [channelSlots, slotSize_i32,
    slotSize_optSub settingsSlots_size, Channel.size,
    Nat.add_assoc]

theorem wire_standardSizes : wire.StandardSizes := by
  intro id variant n hn
  have hid : slotSize (1, u32 id) = idSize id := slotSize_u32 (by decide) id
  show (message (fromRadioSlots ⟨id, variant⟩)).length = _
  rw [message_length, fromRadioSlots, List.map_cons, List.sum_cons, hid]
  cases variant with
  | myInfo info =>
    cases hn
    simp [variantSlots, slotSize_sub myInfoSlots_size]
  | nodeInfo info =>
    cases hn
    simp [variantSlots, slotSize_sub nodeInfoSlots_size]
  | configCompleteId nonce =>
    cases hn
    simp [variantSlots, slotSize_varint]
  | channel ch =>
    cases hn
    simp [variantSlots, slotSize_sub channelSlots_size]
  | metadata md =>
    cases hn
    simp [variantSlots, slotSize_sub metadataSlots_size]
  | _ => cases hn

end Multiplextashtic.Messages

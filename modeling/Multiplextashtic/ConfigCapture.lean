import Multiplextashtic.StateCache

/-! # The captured configuration

`capture_defaults` of `config_capture.py`: the messages a replay sends where the
cache has nothing better, among them made-up nodes. -/
namespace Multiplextashtic.Capture
open Multiplextashtic.Protocol Multiplextashtic.Messages Multiplextashtic.Cache

/-! ## Floats -/

/-- `a / b` to the nearest integer, ties to even. -/
def roundHalfEven (a b : Nat) : Nat :=
  let q := a / b
  let r := a % b
  if 2 * r < b then q else if 2 * r > b then q + 1 else if q % 2 = 0 then q else q + 1

/-- The bits of the 32-bit float nearest to `n / d`. -/
def floatBits (n : Int) (d : Nat) : FloatBits :=
  if n = 0 then 0
  else
    let scaled := n.natAbs * 2 ^ 64 / d
    let mantissa := roundHalfEven (n.natAbs * 2 ^ 64) (d * 2 ^ (scaled.log2 - 23))
    let sign := if n < 0 then 2 ^ 31 else 0
    UInt32.ofNat (sign + (scaled.log2 + 63) * 2 ^ 23 + (mantissa - 2 ^ 23))

example : floatBits 42 10 = 0x40866666 := by decide

/-! ## Entries -/

inductive EntryType where
  | myInfo
  | ownNodeInfo
  | metadata
  | channel
  | config (name : String)
  | moduleConfig (name : String)
  | nodeInfo
  deriving DecidableEq, Repr

structure Entry where
  type : EntryType
  data : Bytes
  deriving DecidableEq, Repr

structure ConfigCapture where
  captured : List Entry := []
  complete : Bool := false
  deriving DecidableEq, Repr

/-! ## Defaults -/

def encodeUtf8 (s : String) : Bytes := s.toByteArray.data.toList

/-- `f"virtual-{node_num:08x}".encode("utf-8")` -/
def virtualDeviceId (nodeNum : NodeNum) : Bytes := encodeUtf8 ("virtual-" ++ hex8 nodeNum)

def defaultFirmware : String := "2.6.0-virtual-mux"

def defaultMyInfo (nodeNum : NodeNum) (syntheticNodes : Nat) : MyNodeInfo where
  myNodeNum := nodeNum
  rebootCount := 0
  minAppVersion := 20200
  deviceId := virtualDeviceId nodeNum
  firmwareEdition := 0
  nodedbCount := UInt32.ofNat syntheticNodes

/-- A full battery, and nothing sent yet. -/
def freshMetrics : DeviceMetrics := ⟨some 100, some (floatBits 42 10), some 0, some 0⟩

def defaultOwnNode (nodeNum : NodeNum) (longName shortName : String) : NodeInfo where
  num := nodeNum
  user := some ⟨nodeId nodeNum, longName, shortName, 0, 0, []⟩
  position := some ⟨some 0, some 0, some 0, 0⟩
  snr := 0
  lastHeard := 0
  deviceMetrics := some freshMetrics
  viaMqtt := false
  hopsAway := some 0
  isFavorite := false
  isIgnored := false

def defaultMetadata (firmwareVersion : String) : DeviceMetadata :=
  ⟨firmwareVersion, 0, false, false, false, false, 0, 0⟩

def primaryRole : Int32 := 1
def disabledRole : Int32 := 0

def defaultChannel (index : Nat) : Channel :=
  if index = 0 then
    ⟨0, some ⟨0x01 :: List.replicate 31 0, "MediumFast", 0, true, true, none⟩, primaryRole⟩
  else ⟨Int32.ofNat index, none, disabledRole⟩

def defaultConfigs : List (String × Config) :=
  [("lora", .lora true 4 0 3 20 []), ("device", .device 0 false []), ("display", .display 0 0 []),
    ("power", .unset), ("network", .network false false []), ("bluetooth", .unset)]

def defaultModuleConfigs : List (String × ModuleConfig) :=
  [("mqtt", .mqtt false []), ("telemetry", .telemetry 120 120 120 [])]

/-! ## Made-up nodes -/

def syntheticNames : List (String × String) :=
  [("Node Alpha", "ALPH"), ("Node Beta", "BETA"), ("Node Gamma", "GMMA"),
    ("Node Delta", "DLTA"), ("Node Echo", "ECHO"), ("Node Foxtrot", "FOX"),
    ("Node Golf", "GOLF"), ("Node Hotel", "HTL"), ("Node India", "IND"),
    ("Node Juliet", "JLT"), ("Node Kilo", "KILO"), ("Node Lima", "LIMA"),
    ("Node Mike", "MIKE"), ("Node November", "NOV"), ("Node Oscar", "OSCR"),
    ("Node Papa", "PAPA"), ("Node Quebec", "QUE"), ("Node Romeo", "ROM"),
    ("Node Sierra", "SIR"), ("Node Tango", "TNG"), ("Node Uniform", "UNI"),
    ("Node Victor", "VIC"), ("Node Whiskey", "WHIS"), ("Node Xray", "XRAY"),
    ("Node Yankee", "YANK"), ("Node Zulu", "ZULU")]

/-- `f"N{i:04d}"[:4]` -/
def syntheticShort (i : Nat) : String :=
  let digits := Nat.toDigits 10 i
  String.ofList ('N' :: (List.replicate (4 - digits.length) '0' ++ digits).take 3)

def syntheticNode (i : Nat) : NodeInfo :=
  let seed := UInt32.ofNat (0xABCD0000 + i)
  let name :=
    if i ≥ syntheticNames.length then ("Node " ++ hex8 seed, syntheticShort i)
    else syntheticNames.getD i ("", "")
  { num := seed
    user := some ⟨nodeId seed, name.1, name.2, Int32.ofNat (i % 10), 0, []⟩
    position := some ⟨some (Int32.ofNat (373000000 + i * 1000)),
      some (Int32.ofInt (-1220000000 - i * 1000)), some (Int32.ofNat (10 + i % 100)), 0⟩
    snr := floatBits ((i % 20 : Nat) - 10) 1
    lastHeard := UInt32.ofNat (i * 3600)
    deviceMetrics := some ⟨some (UInt32.ofNat (50 + i % 50)),
      some (floatBits (37 + (i % 10 : Nat)) 10), some (floatBits (i % 100 : Nat) 100),
      some (floatBits (i % 50 : Nat) 100)⟩
    viaMqtt := false
    hopsAway := some (UInt32.ofNat (i % 4))
    isFavorite := false
    isIgnored := false }

/-- From the first longitude that leaves the int32 range on, assigning it raises. -/
def syntheticLimit : Nat := 927484

/-! ## `capture_defaults` -/

section
variable {E : Type} (pb : Protobuf E)

def entry (type : EntryType) (variant : FromRadioVariant E) : Entry :=
  ⟨type, pb.serializeFromRadio ⟨0, variant⟩⟩

def captureDefaults (nodeNum : NodeNum) (syntheticNodes : Nat) (firmwareVersion : Option String) :
    ConfigCapture :=
  -- `nodedb_count` is the first assignment that can be out of range
  if syntheticNodes ≥ 2 ^ 32 then {}
  else
    let firmware := orElse (firmwareVersion.getD "") defaultFirmware
    { captured :=
        [entry pb .myInfo (.myInfo (defaultMyInfo nodeNum syntheticNodes)),
          entry pb .ownNodeInfo (.nodeInfo (defaultOwnNode nodeNum "Virtual Multiplexer" "VMUX")),
          entry pb .metadata (.metadata (defaultMetadata firmware))] ++
        (List.range 8).map (fun index => entry pb .channel (.channel (defaultChannel index))) ++
        defaultConfigs.map (fun c => entry pb (.config c.1) (.config c.2)) ++
        defaultModuleConfigs.map (fun c => entry pb (.moduleConfig c.1) (.moduleConfig c.2)) ++
        (List.range (min syntheticNodes syntheticLimit)).map
          (fun i => entry pb .nodeInfo (.nodeInfo (syntheticNode i)))
      complete := syntheticNodes ≤ syntheticLimit }

/-- Every entry of a capture is a message that announces no ConfigComplete. -/
theorem captureDefaults_entry {nodeNum : NodeNum} {syntheticNodes : Nat}
    {firmwareVersion : Option String} {e : Entry}
    (he : e ∈ (captureDefaults pb nodeNum syntheticNodes firmwareVersion).captured) :
    ∃ variant, e = entry pb e.type variant ∧ ∀ nonce, variant ≠ .configCompleteId nonce := by
  unfold captureDefaults at he
  split at he
  · cases he
  · simp only [List.mem_append, List.mem_cons, List.not_mem_nil, or_false, List.mem_map] at he
    rcases he with (((((rfl | rfl | rfl) | ⟨index, _, rfl⟩) | ⟨c, _, rfl⟩) | ⟨c, _, rfl⟩) | ⟨i, _, rfl⟩)
    all_goals exact ⟨_, rfl, fun nonce => by simp⟩

end
end Multiplextashtic.Capture

import Multiplextashtic.ReplaySequence

/-! # The config sections of a replay

`_update_cache` passes over Config and ModuleConfig messages, and a capture holds
the defaults. So a replay shows a section as the physical node told it only where
that is what the defaults say. -/
namespace Multiplextashtic.ConfigReplay
open Multiplextashtic.Protocol Multiplextashtic.Messages Multiplextashtic.Config
open Multiplextashtic.Cache Multiplextashtic.Capture Multiplextashtic.Server Run Table

/-! ## Sections -/

/-- A section, by its number in the oneof of a Config or a ModuleConfig. -/
inductive Section where
  | config (number : UInt32)
  | moduleConfig (number : UInt32)
  deriving DecidableEq, Repr

def configNumber : Messages.Config → Option UInt32
  | .unset => none
  | .device .. => some 1
  | .network .. => some 4
  | .display .. => some 5
  | .lora .. => some 6
  | .other number _ => some number

def moduleConfigNumber : ModuleConfig → Option UInt32
  | .unset => none
  | .mqtt .. => some 1
  | .telemetry .. => some 6
  | .other number _ => some number

variable {E : Type} {pb : Protobuf E} {env : Env} {r r' : Replay} {ws : List Bytes}

/-- The section a message is about. -/
def sectionOf : FromRadioVariant E → Option Section
  | .config c => (configNumber c).map .config
  | .moduleConfig c => (moduleConfigNumber c).map .moduleConfig
  | _ => none

def sectionIn (v : FromRadioVariant E) : Option (FromRadioVariant E) :=
  if (sectionOf v).isSome then some v else none

/-- The messages about sections in what is written or received. -/
def sections (pb : Protobuf E) (ws : List Bytes) : List (FromRadioVariant E) :=
  (received pb ws).filterMap sectionIn

/-- What was told last of a section. -/
def lastSection (pb : Protobuf E) (radioed : List Bytes) (sec : Section) :
    Option (FromRadioVariant E) := lastOf sectionOf (sections pb radioed) (some sec)

/-- A client is shown every section as it was told last. -/
def ShowsTold (pb : Protobuf E) (radioed ws : List Bytes) : Prop :=
  ∀ sec v, lastSection pb radioed sec = some v →
    ((sections pb ws).filter fun m => sectionOf m = some sec) = [v]

/-- The sections of the defaults. -/
def defaultSections (E : Type) : List (FromRadioVariant E) :=
  (defaultConfigs.map fun c => .config c.2).filterMap sectionIn ++
    (defaultModuleConfigs.map fun c => .moduleConfig c.2).filterMap sectionIn

/-- No two defaults are about one section. -/
theorem defaultSections_unique : Unique sectionOf (defaultSections E) := by
  show [Section.config 6, .config 1, .config 5, .config 4, .moduleConfig 1,
    .moduleConfig 6].map some |>.Nodup
  decide

/-! ## The sections a replay has sent -/

def sectionsOf (pb : Protobuf E) (entries : List Entry) : List (FromRadioVariant E) :=
  entries.filterMap fun e => Item.pick pb sectionIn (.captured e)

theorem sections_captured (hrt : pb.FromRadioRoundTrip) (hc : Captured pb env.capture) :
    sectionsOf pb env.configEntries = env.ofCapture (defaultSections E) := by
  rw [sectionsOf, configEntries_of_captured hc, Env.ofCapture_filterMap, sectionEntries,
    List.filterMap_append, pick_entries hrt sectionIn, pick_entries hrt sectionIn, defaultSections,
    List.filterMap_map, List.filterMap_map]
  rfl

/-- The sections sent so far, where a replay stands. Ids run out only for a replay that
cannot send its ConfigComplete any more. -/
def SectionsAt (pb : Protobuf E) (all sent : List (FromRadioVariant E)) (nextId : Nat) :
    Phase → Prop
  | .config rest => (∀ e ∈ rest, e ∈ sectionEntries pb) ∧
      (sent ++ sectionsOf pb rest = all ∨ 2 ^ 32 ≤ nextId)
  | .knownNode _ _ => sent = all ∨ 2 ^ 32 ≤ nextId
  | .syntheticNode _ => sent = all ∨ 2 ^ 32 ≤ nextId
  | .configComplete => sent = all
  | _ => sent = []

/-- What a full or config-only replay keeps as it sends its sections. -/
structure SendsSections (pb : Protobuf E) (all : List (FromRadioVariant E)) (ws : List Bytes)
    (r : Replay) : Prop where
  full : r.configId ≠ nonceOnlyDb
  started : 0 < r.nextId
  proper : Proper pb r.phase
  sent : SectionsAt pb all (sections pb ws) r.nextId r.phase

variable {all : List (FromRadioVariant E)}

theorem later {a : Prop} {nextId : Nat} (h : a ∨ 2 ^ 32 ≤ nextId) : a ∨ 2 ^ 32 ≤ nextId + 1 :=
  h.imp_right Nat.le_succ_of_le

theorem Skips.sections (hrt : pb.FromRadioRoundTrip) (hfit : SectionsFit pb)
    (hc : Captured pb env.capture) (hall : env.ofCapture (defaultSections E) = all)
    (hs : Skips pb env r r') (h : SendsSections pb all ws r) : SendsSections pb all ws r' := by
  obtain ⟨hfull, hpos, hproper, hsent⟩ := h
  have hproper' := hs.proper (typed_captured hrt hc) hproper
  obtain ⟨hid, -, -⟩ := hs.same
  refine ⟨hid ▸ hfull, ?_, hproper', ?_⟩
  · cases hs with
    | tooLarge => exact Nat.succ_pos _
    | _ => exact hpos
  cases hs with
  | nodesOnly _ hdb => exact absurd hdb hfull
  | channels hp | noChannel hp =>
    rw [hp] at hsent
    exact hsent
  | configs hp =>
    rw [hp] at hsent
    have hempty : ConfigReplay.sections pb ws = [] := hsent
    refine ⟨?_, .inl ?_⟩
    · rw [configEntries_of_captured hc, Env.ofCapture]
      split
      · exact List.forall_mem_nil _
      · exact fun _ he => he
    · rw [hempty, List.nil_append, sections_captured hrt hc, hall]
  | configOnly hp | nodes hp =>
    rw [hp] at hsent
    have hsent := hsent.2
    rw [sectionsOf, List.filterMap_nil, List.append_nil] at hsent
    exact hsent
  | noNode hp =>
    rw [hp] at hsent
    exact hsent
  | @unparsed phase entry rest hl hp hnone =>
    rw [hp] at hsent
    cases hl with
    | channel => exact hsent
    | node => exact hsent
    | config =>
      obtain ⟨hmem, hsent⟩ := hsent
      refine ⟨fun e he => hmem e (List.mem_cons_of_mem _ he), ?_⟩
      rw [sectionsOf, List.filterMap_cons_none (by rw [Item.pick, hnone]; rfl)] at hsent
      exact hsent
  | @tooLarge phase entry rest fr e hl hp hfr he =>
    rw [hp] at hsent
    cases hl with
    | channel => exact hsent
    | node => exact later hsent
    | config =>
      obtain ⟨hmem, -⟩ := hsent
      refine ⟨fun e he => hmem e (List.mem_cons_of_mem _ he), .inr ?_⟩
      show 2 ^ 32 ≤ r.nextId + 1
      by_contra hlt
      obtain ⟨data, hok⟩ := sure_section hrt hfit entry (hmem entry List.mem_cons_self) fr hfr
        r.nextId hpos (Nat.lt_of_succ_lt (Nat.lt_of_not_le hlt))
      have hok' : encode pb r fr.variant = .ok data := hok
      rw [he] at hok'
      cases hok'

theorem sections_append (hrt : pb.FromRadioRoundTrip) {variant : FromRadioVariant E} {data : Bytes}
    (he : encode pb r variant = .ok data) (ws : List Bytes) :
    sections pb (ws ++ [data]) = sections pb ws ++ (sectionIn variant).toList := by
  rw [sections, received_concat (encode_parses hrt he), List.filterMap_append]
  cases hv : sectionIn variant <;> simp [sections, hv]

/-- Only the config loop has entries about a section. -/
theorem Holds.sectionIn {type : EntryType} {v : FromRadioVariant E} (h : Holds type v)
    (hskip : skipped type = true) : sectionIn v = none := by
  cases h with
  | config | moduleConfig => cases hskip
  | _ => rfl

theorem Emits.sections (hrt : pb.FromRadioRoundTrip) (hc : Captured pb env.capture)
    {variant : FromRadioVariant E} {phase : Phase} {data : Bytes}
    (hem : Emits pb env r variant phase) (he : encode pb r variant = .ok data)
    (h : SendsSections pb all ws r) : SendsSections pb all (ws ++ [data]) (r.wrote phase) := by
  obtain ⟨hfull, hpos, hproper, hsent⟩ := h
  have hlt := (encode_eq_ok_iff.mp he).1
  refine ⟨hfull, Nat.succ_pos _, hem.proper hproper, ?_⟩
  rw [sections_append hrt he]
  have hkeep (hnone : sectionIn variant = none) : ConfigReplay.sections pb ws ++
      (sectionIn variant).toList = ConfigReplay.sections pb ws := by
    rw [hnone]
    exact List.append_nil _
  cases hem with
  | own hs =>
    cases hs with
    | myInfo hp | ownNodeInfo hp | channel hp | knownNode hp =>
      rw [hp] at hsent
      rw [hkeep rfl]
      first | exact hsent | exact later hsent
    | ownFirst _ hdb => exact absurd hdb hfull
    | metadata hp _ hm =>
      obtain ⟨md, hmd⟩ := metadataMessage_typed (typed_captured hrt hc)
      rw [hmd] at hm
      cases hm
      rw [hp] at hsent
      rw [hkeep rfl]
      exact hsent
    | configComplete hp =>
      rw [hp] at hsent
      rw [hkeep rfl]
      exact hsent.resolve_right (Nat.not_le.mpr hlt)
  | @captured phase entry rest fr hl hp hfr =>
    rw [hp] at hsent hproper
    have hholds := (hproper.head hl hfr).1
    cases hl with
    | channel =>
      have htype : entry.type = .channel := (hproper entry List.mem_cons_self).2
      rw [hkeep (hholds.sectionIn (by rw [htype]; rfl))]
      exact hsent
    | node =>
      have htype : entry.type = .nodeInfo := (hproper entry List.mem_cons_self).2
      rw [hkeep (hholds.sectionIn (by rw [htype]; rfl))]
      exact later hsent
    | config =>
      obtain ⟨hmem, hsent⟩ := hsent
      refine ⟨fun e he => hmem e (List.mem_cons_of_mem _ he), hsent.imp ?_ Nat.le_succ_of_le⟩
      intro hall
      have hcons : sectionsOf pb (entry :: rest) =
          (sectionIn fr.variant).toList ++ sectionsOf pb rest := by
        rw [sectionsOf, List.filterMap_cons, Item.pick, hfr, Option.bind_some]
        cases sectionIn fr.variant <;> rfl
      rw [List.append_assoc, ← hcons]
      exact hall

/-- **The sections of a replay** are the defaults, whatever changes while it runs and
whichever drains raise. -/
theorem Writes.sections (hrt : pb.FromRadioRoundTrip) (hfit : SectionsFit pb)
    {C : Env → Option PyError → Prop} {all : List (FromRadioVariant E)} (hC : ∀ env lost,
      C env lost → Captured pb env.capture ∧ env.ofCapture (defaultSections E) = all)
    {myNodeNum : NodeNum} {configId : UInt32} (hid : configId ≠ nonceOnlyDb)
    (hw : Writes pb C (Replay.new myNodeNum configId) ws r) (hend : r.phase = .configComplete) :
    ConfigReplay.sections pb ws = all := by
  have hsends : SendsSections pb all ws r := by
    refine hw.keeps ⟨hid, Nat.one_pos, trivial, rfl⟩ ?_ ?_ ?_
    · intro ws r sent h
      exact ⟨h.full, h.started, h.proper, h.sent⟩
    · intro env lost ws r r' hc hs h
      obtain ⟨hcaptured, hall⟩ := hC env lost hc
      exact hs.sections hrt hfit hcaptured hall h
    · intro env lost ws r variant phase data hc hem he h
      exact hem.sections hrt (hC env lost hc).1 he h
  have hsent := hsends.sent
  rw [hend] at hsent
  exact hsent

/-! ## Shown as told -/

/-- What a turn finds at `s` or later, as long as a capture is there just when there is
one at `s`. -/
def Later (pb : Protobuf E) (s : TCPServer E) (env : Env) (_ : Option PyError) : Prop :=
  (∃ es s', run (step pb) s es = some s' ∧ (world s').env = env) ∧
    (env.capture.captured = [] ↔ s.capture.captured = [])

theorem section_of_last {radioed : List Bytes} {sec : Section} {v : FromRadioVariant E}
    (h : lastSection pb radioed sec = some v) : sectionOf v = some sec := key_of_get h

/-- **Which sections a client is shown as the physical node told them last**: all of them,
just when each was told as the defaults have it. -/
theorem replay_sections_iff (hrt : pb.FromRadioRoundTrip) (hfit : SectionsFit pb)
    {config : AppConfig} {es : List Event} {s : TCPServer E}
    (hr : run (step pb) (init config) es = some s) {myNodeNum : NodeNum} {configId : UInt32}
    (hid : configId ≠ nonceOnlyDb)
    (hw : Writes pb (Later pb s) (Replay.new myNodeNum configId) ws r)
    (hend : r.phase = .configComplete) :
    ShowsTold pb s.radioed ws ↔ ∀ sec v, lastSection pb s.radioed sec = some v →
      v ∈ (world s).env.ofCapture (defaultSections E) := by
  have hsections : sections pb ws = (world s).env.ofCapture (defaultSections E) := by
    refine Writes.sections hrt hfit ?_ hid hw hend
    intro env lost hlater
    obtain ⟨⟨fs, s', hfs, rfl⟩, hcaptured⟩ := hlater
    refine ⟨run_capture config (es ++ fs) (run_append.mpr ⟨s, hr, hfs⟩), ?_⟩
    unfold Env.ofCapture
    exact if_congr hcaptured rfl rfl
  unfold ShowsTold
  rw [hsections]
  constructor
  · intro h sec v hlast
    have hmem : v ∈ [v] := List.mem_singleton_self v
    rw [← h sec v hlast] at hmem
    exact List.mem_of_mem_filter hmem
  · intro h sec v hlast
    have hkey := section_of_last hlast
    have hunique : Unique sectionOf ((world s).env.ofCapture (defaultSections E)) := by
      unfold Env.ofCapture
      split
      · exact Unique.nil _
      · exact defaultSections_unique
    rw [← hkey]
    exact filter_key hunique (h sec v hlast)

/-- An undisturbed replay at `s`. -/
theorem Replays.later {s : TCPServer E} {myNodeNum : NodeNum} {configId : UInt32}
    (h : Replays pb (world s).env myNodeNum configId ws) :
    ∃ r, Writes pb (Later pb s) (Replay.new myNodeNum configId) ws r ∧
      r.phase = .configComplete := by
  obtain ⟨r, hw, hend⟩ := h
  refine ⟨r, hw.mono ?_, hend⟩
  rintro env lost ⟨rfl, -⟩
  exact ⟨⟨[], s, rfl, rfl⟩, Iff.rfl⟩

/-- The device tells of a section, and the defaults are captured. -/
def sectionTold (c : Messages.Config) : List Event :=
  [.radio (wire.serializeFromRadio ⟨0, .config c⟩), .processIncoming, .recapture 0]

/-- LoRa for Europe. -/
def europe : Messages.Config := .lora true 0 3 3 27 []

set_option maxRecDepth 20000 in
/-- The device told its region, and a client is shown none. -/
theorem replay_sections_region :
    ∃ s ws r, run (step wire) (init {}) (sectionTold europe) = some s ∧
      Writes wire (Later wire s) (Replay.new 0x11 7) ws r ∧ r.phase = .configComplete ∧
      lastSection wire s.radioed (.config 6) = some (.config europe) ∧
      ((sections wire ws).filter fun m => sectionOf m = some (.config 6)) =
        [.config (.lora true 4 0 3 20 [])] ∧ ¬ ShowsTold wire s.radioed ws := by
  have hrun : (run (step wire) (init {}) (sectionTold europe)).map (fun s =>
      let writes := perform wire 1 (script wire (world s).env 0x11 7)
      (writes.2, lastSection wire s.radioed (.config 6),
        (sections wire writes.1).filter fun m => sectionOf m = some (.config 6))) =
      some (none, some (.config europe), [.config (.lora true 4 0 3 20 [])]) := by decide
  obtain ⟨s, hs, hrun⟩ := Option.map_eq_some_iff.mp hrun
  obtain ⟨hok, hrun⟩ := Prod.mk.inj hrun
  obtain ⟨hlast, hshown⟩ := Prod.mk.inj hrun
  obtain ⟨r, hw, hend⟩ := (replays_perform hok).later
  refine ⟨s, _, r, hs, hw, hend, hlast, hshown, ?_⟩
  intro h
  have htold := h _ _ hlast
  rw [hshown] at htold
  exact absurd htold (by decide)

set_option maxRecDepth 20000 in
/-- A device with a section as in the defaults. -/
theorem replay_sections_device :
    ∃ s ws, run (step wire) (init {}) (sectionTold (.device 0 false [])) = some s ∧
      lastSection wire s.radioed (.config 1) = some (.config (.device 0 false [])) ∧
      ShowsTold wire s.radioed ws := by
  have hrun : (run (step wire) (init {}) (sectionTold (.device 0 false []))).map (fun s =>
      ((perform wire 1 (script wire (world s).env 0x11 7)).2, sections wire s.radioed,
        (world s).env.ofCapture (defaultSections Unit))) =
      some (none, [.config (.device 0 false [])], defaultSections Unit) := by decide
  obtain ⟨s, hs, hrun⟩ := Option.map_eq_some_iff.mp hrun
  obtain ⟨hok, hrun⟩ := Prod.mk.inj hrun
  obtain ⟨htold, hcaptured⟩ := Prod.mk.inj hrun
  obtain ⟨r, hw, hend⟩ := (replays_perform hok).later
  refine ⟨s, _, hs, ?_, (replay_sections_iff wire_fromRadioRoundTrip wire_sectionsFit hs
    (by decide) hw hend).mpr ?_⟩
  · rw [lastSection, htold]
    decide
  · intro sec v hlast
    have hmem := mem_of_lastOf hlast
    rw [htold, List.mem_singleton] at hmem
    rw [hcaptured, hmem]
    decide

end Multiplextashtic.ConfigReplay

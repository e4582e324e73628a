import Multiplextashtic.ReplaySteps

/-! # Undisturbed replays

When nothing changes while a replay runs and its writer does not fail, it goes
through a list of items fixed by the cache and the capture it found: messages of
its own, one after the other under the next ids, and captured entries, which it
passes over where they cannot be sent. -/
namespace Multiplextashtic.ConfigReplay
open Multiplextashtic.Protocol Multiplextashtic.Messages Multiplextashtic.Config
open Multiplextashtic.Cache Multiplextashtic.Capture Relation

/-! ## The script -/

inductive Item (E : Type) where
  | message (variant : FromRadioVariant E)
  | undecodable
  | captured (entry : Entry)

variable {E : Type} {pb : Protobuf E} {env : Env} {r r' : Replay} {data : Bytes}

section
variable (pb : Protobuf E) (env : Env) (r : Replay)

def syntheticItems (rest : List Entry) : List (Item E) :=
  rest.map .captured ++ [.message (.configCompleteId r.configId)]

def nodeItems (rest : List (NodeNum × CachedNode)) (sent : Nat) : List (Item E) :=
  rest.map (fun n => .message (.nodeInfo (knownNodeInfo n.1 n.2))) ++
    syntheticItems r (env.fallback (sent + rest.length) .nodeInfo)

def afterConfigItems : List (Item E) :=
  if r.configId = nonceOnlyConfig then syntheticItems r []
  else nodeItems env r (sortedNodes env.cache) 0

def configItems (rest : List Entry) : List (Item E) :=
  rest.map .captured ++ afterConfigItems env r

def capturedChannelItems (rest : List Entry) : List (Item E) :=
  rest.map .captured ++ configItems env r env.configEntries

def channelItems (next sent : Nat) : List (Item E) :=
  let rest := env.cache.channels.drop next
  rest.map (fun ch => .message (.channel (channelInfo ch))) ++
    capturedChannelItems env r (env.fallback (sent + rest.length) .channel)

def metadataItem : Item E := (metadataMessage pb env).elim .undecodable .message

def afterOwnItems : List (Item E) :=
  if r.configId = nonceOnlyDb then nodeItems env r (sortedNodes env.cache) 0
  else metadataItem pb env :: channelItems env r 0 0

def ownItems : List (Item E) := .message (.nodeInfo (ownNodeInfo env r)) :: afterOwnItems pb env r

/-- What a replay has left to send where it stands. -/
def items : List (Item E) :=
  match r.phase with
  | .start =>
    if r.configId = nonceOnlyDb then ownItems pb env r
    else .message (.myInfo (myNodeInfo env r)) :: ownItems pb env r
  | .myInfo => ownItems pb env r
  | .ownNodeInfo => afterOwnItems pb env r
  | .metadata => channelItems env r 0 0
  | .channel next sent => channelItems env r next sent
  | .capturedChannel rest => capturedChannelItems env r rest
  | .config rest => configItems env r rest
  | .knownNode rest sent => nodeItems env r rest sent
  | .syntheticNode rest => syntheticItems r rest
  | .configComplete => []

end

/-- A message under an id, framed for the size check. -/
def encodeAs (pb : Protobuf E) (nextId : Nat) (variant : FromRadioVariant E) :
    Except PyError Bytes :=
  encode pb ⟨0, 0, nextId, 0, .start⟩ variant

/-- What is written of a script from an id on, and what raises in it. -/
def perform (pb : Protobuf E) : Nat → List (Item E) → List Bytes × Option PyError
  | _, [] => ([], none)
  | _, .undecodable :: _ => ([], some .decodeError)
  | nextId, .message variant :: rest =>
    match encodeAs pb nextId variant with
    | .error e => ([], some e)
    | .ok data => (perform pb (nextId + 1) rest).map (data :: ·) id
  | nextId, .captured entry :: rest =>
    match pb.parseFromRadio entry.data with
    | none => perform pb nextId rest
    | some fr =>
      match encodeAs pb nextId fr.variant with
      | .error _ => perform pb (nextId + 1) rest
      | .ok data => (perform pb (nextId + 1) rest).map (data :: ·) id

/-! ## The script is what a turn does -/

/-- The entries of a loop are the first items. -/
theorem Loop.items {phase : List Entry → Phase} (hl : Loop phase) (pb : Protobuf E) (env : Env)
    (r : Replay) : ∃ after : List (Item E), ∀ (r' : Replay) (rest : List Entry),
      r'.configId = r.configId → r'.phase = phase rest →
        items pb env r' = rest.map .captured ++ after := by
  cases hl with
  | channel =>
    refine ⟨configItems env r env.configEntries, ?_⟩
    intro r' rest hid hp
    simp [ConfigReplay.items, hp, capturedChannelItems, configItems, afterConfigItems, nodeItems,
      syntheticItems, hid]
  | config =>
    refine ⟨afterConfigItems env r, ?_⟩
    intro r' rest hid hp
    simp [ConfigReplay.items, hp, configItems, afterConfigItems, nodeItems, syntheticItems, hid]
  | node =>
    refine ⟨[.message (.configCompleteId r.configId)], ?_⟩
    intro r' rest hid hp
    simp [ConfigReplay.items, hp, syntheticItems, hid]

/-- A move that writes nothing is none of the script's, or passes over an entry. -/
theorem Skips.items (hs : Skips pb env r r') :
    (items pb env r = items pb env r' ∧ r'.nextId = r.nextId) ∨
      ∃ entry, items pb env r = .captured entry :: items pb env r' ∧
        ((pb.parseFromRadio entry.data = none ∧ r'.nextId = r.nextId) ∨
          ∃ fr e, pb.parseFromRadio entry.data = some fr ∧
            encodeAs pb r.nextId fr.variant = .error e ∧ r'.nextId = r.nextId + 1) := by
  cases hs with
  | nodesOnly hp hid =>
    refine .inl ⟨?_, rfl⟩
    rw [ConfigReplay.items, hp]
    exact if_pos hid
  | channels hp =>
    refine .inl ⟨?_, rfl⟩
    rw [ConfigReplay.items, hp]
    rfl
  | @noChannel next sent hp hch =>
    refine .inl ⟨?_, rfl⟩
    have hdrop : env.cache.channels.drop next = [] :=
      List.drop_eq_nil_of_le (List.getElem?_eq_none_iff.mp hch)
    rw [ConfigReplay.items, hp]
    show channelItems env r next sent = capturedChannelItems env r (env.fallback sent .channel)
    unfold channelItems
    simp [hdrop]
  | configs hp =>
    refine .inl ⟨?_, rfl⟩
    rw [ConfigReplay.items, hp]
    rfl
  | configOnly hp hid =>
    refine .inl ⟨?_, rfl⟩
    rw [ConfigReplay.items, hp]
    exact if_pos hid
  | nodes hp hid =>
    refine .inl ⟨?_, rfl⟩
    rw [ConfigReplay.items, hp]
    exact if_neg hid
  | noNode hp =>
    refine .inl ⟨?_, rfl⟩
    rw [ConfigReplay.items, hp]
    rfl
  | @unparsed phase entry rest hl hp hfr =>
    obtain ⟨after, hitems⟩ := hl.items pb env r
    refine .inr ⟨entry, ?_, .inl ⟨hfr, rfl⟩⟩
    rw [hitems r _ rfl hp, hitems (r.goto (phase rest)) rest rfl rfl]
    rfl
  | @tooLarge phase entry rest fr e hl hp hfr he =>
    obtain ⟨after, hitems⟩ := hl.items pb env r
    refine .inr ⟨entry, ?_, .inr ⟨fr, e, hfr, he, rfl⟩⟩
    rw [hitems r _ rfl hp, hitems (r.wrote (phase rest)) rest rfl rfl]
    rfl

/-- What a replay sends is the item it comes to. -/
theorem Sends.items {variant : FromRadioVariant E} {phase : Phase}
    (hs : Sends pb env r variant phase) :
    items pb env r = .message variant :: items pb env (r.wrote phase) := by
  cases hs with
  | myInfo hp hid =>
    rw [ConfigReplay.items, hp]
    exact if_neg hid
  | ownFirst hp hid =>
    rw [ConfigReplay.items, hp]
    exact if_pos hid
  | ownNodeInfo hp =>
    rw [ConfigReplay.items, hp]
    rfl
  | metadata hp hid hm =>
    rw [ConfigReplay.items, hp]
    refine (if_neg hid).trans ?_
    rw [metadataItem, hm]
    rfl
  | @channel next sent ch hp hch =>
    have hdrop : env.cache.channels.drop next = ch :: env.cache.channels.drop (next + 1) := by
      obtain ⟨hlt, rfl⟩ := List.getElem?_eq_some_iff.mp hch
      exact List.drop_eq_getElem_cons hlt
    rw [ConfigReplay.items, hp]
    show channelItems env r next sent = _ :: channelItems env r (next + 1) (sent + 1)
    unfold channelItems
    simp only [hdrop, List.map_cons, List.cons_append, List.length_cons]
    rw [show sent + ((env.cache.channels.drop (next + 1)).length + 1) =
      sent + 1 + (env.cache.channels.drop (next + 1)).length by omega]
  | @knownNode num node rest sent hp =>
    rw [ConfigReplay.items, hp]
    show nodeItems env r ((num, node) :: rest) sent = _ :: nodeItems env r rest (sent + 1)
    unfold nodeItems
    simp only [List.map_cons, List.cons_append, List.length_cons]
    rw [show sent + (rest.length + 1) = sent + 1 + rest.length by omega]
  | configComplete hp =>
    rw [ConfigReplay.items, hp]
    rfl

/-- **A turn performs its part of the script.** -/
theorem Skips.perform (hs : Skips pb env r r') :
    perform pb r.nextId (ConfigReplay.items pb env r) =
        perform pb r'.nextId (ConfigReplay.items pb env r') ∧
      (ConfigReplay.items pb env r').length ≤ (ConfigReplay.items pb env r).length := by
  rcases hs.items with ⟨heq, hid⟩ | ⟨entry, heq, ⟨hfr, hid⟩ | ⟨fr, e, hfr, he, hid⟩⟩
  · rw [heq, hid]
    exact ⟨rfl, Nat.le_refl _⟩
  · rw [heq, hid, ConfigReplay.perform, hfr]
    exact ⟨rfl, Nat.le_succ _⟩
  · rw [heq, hid, ConfigReplay.perform, hfr]
    simp only [he]
    exact ⟨trivial, Nat.le_succ _⟩

theorem Emits.perform {variant : FromRadioVariant E} {phase : Phase}
    (hem : Emits pb env r variant phase) (he : encode pb r variant = .ok data) :
    perform pb r.nextId (ConfigReplay.items pb env r) =
        (perform pb (r.nextId + 1) (ConfigReplay.items pb env (r.wrote phase))).map (data :: ·) id ∧
      (ConfigReplay.items pb env (r.wrote phase)).length <
        (ConfigReplay.items pb env r).length := by
  have he' : encodeAs pb r.nextId variant = .ok data := he
  cases hem with
  | own hs =>
    rw [hs.items, ConfigReplay.perform, he']
    exact ⟨rfl, Nat.lt_succ_self _⟩
  | @captured phase entry rest fr hl hp hfr =>
    obtain ⟨after, hitems⟩ := hl.items pb env r
    rw [hitems r _ rfl hp, hitems (r.wrote (phase rest)) rest rfl rfl, List.map_cons,
      List.cons_append, ConfigReplay.perform, hfr]
    simp only [he']
    exact ⟨trivial, Nat.lt_succ_self _⟩

theorem Stuck.perform {e : PyError} (hst : Stuck pb env r e) :
    perform pb r.nextId (ConfigReplay.items pb env r) = ([], some e) := by
  cases hst with
  | undecodable hp hid hm =>
    have hitems : ConfigReplay.items pb env r = .undecodable :: channelItems env r 0 0 := by
      rw [ConfigReplay.items, hp]
      refine (if_neg hid).trans ?_
      rw [metadataItem, hm]
      rfl
    rw [hitems, ConfigReplay.perform]
  | tooLarge hs he =>
    have he' : encodeAs pb r.nextId _ = .error e := he
    rw [hs.items, ConfigReplay.perform, he']

theorem perform_settles (hr : ReflTransGen (Skips pb env) r r') :
    perform pb r.nextId (items pb env r) = perform pb r'.nextId (items pb env r') ∧
      (items pb env r').length ≤ (items pb env r).length := by
  induction hr with
  | refl => exact ⟨rfl, Nat.le_refl _⟩
  | tail _ hs ih => exact ⟨ih.1.trans hs.perform.1, Nat.le_trans hs.perform.2 ih.2⟩

theorem perform_wrote (hw : proceed pb env r = .wrote data r') :
    perform pb r.nextId (items pb env r) =
        (perform pb r'.nextId (items pb env r')).map (data :: ·) id ∧
      (items pb env r').length < (items pb env r).length := by
  have hp := proceed_proceeds pb env r
  rw [hw] at hp
  cases hp with
  | wrote hr hem he =>
    obtain ⟨hperform, hle⟩ := perform_settles hr
    obtain ⟨hem, hlt⟩ := hem.perform he
    exact ⟨hperform.trans hem, Nat.lt_of_lt_of_le hlt hle⟩

theorem perform_raised {e : PyError} (hw : proceed pb env r = .raised e) :
    perform pb r.nextId (items pb env r) = ([], some e) := by
  have hp := proceed_proceeds pb env r
  rw [hw] at hp
  cases hp with
  | raised hr hst => exact (perform_settles hr).1.trans hst.perform

/-! ## Undisturbed replays -/

/-- Every turn finds the same, and no drain raises. -/
def Undisturbed (env env' : Env) (lost : Option PyError) : Prop := env' = env ∧ lost = none

/-- An undisturbed replay writes `ws` and returns. -/
def Replays (pb : Protobuf E) (env : Env) (myNodeNum : NodeNum) (configId : UInt32)
    (ws : List Bytes) : Prop :=
  ∃ r, Writes pb (Undisturbed env) (Replay.new myNodeNum configId) ws r ∧ r.phase = .configComplete

/-- The script of a replay. -/
def script (pb : Protobuf E) (env : Env) (myNodeNum : NodeNum) (configId : UInt32) :
    List (Item E) :=
  items pb env (Replay.new myNodeNum configId)

variable {start : Replay} {ws : List Bytes}

/-- What has been written and what is left make up the script. -/
theorem Writes.performs (hw : Writes pb (Undisturbed env) start ws r) :
    perform pb start.nextId (items pb env start) =
      (perform pb r.nextId (items pb env r)).map (ws ++ ·) id := by
  refine hw.keeps (I := fun ws r => perform pb start.nextId (items pb env start) =
    (perform pb r.nextId (items pb env r)).map (ws ++ ·) id) rfl (fun _ _ _ h => h) ?_ ?_
  · rintro env' lost ws r r' ⟨rfl, -⟩ hs hi
    rw [hi, hs.perform.1]
  · rintro env' lost ws r variant phase data ⟨rfl, -⟩ hem he hi
    rw [hi, (hem.perform he).1, Prod.map_map]
    show Prod.map (fun more => ws ++ data :: more) id _ = Prod.map _ id _
    congr 1
    funext more
    exact (List.append_cons ws data more)

theorem items_of_complete (hp : r.phase = .configComplete) : items pb env r = [] := by
  rw [items, hp]

/-- From wherever it stands, a replay whose script raises nothing comes to its end. -/
theorem Writes.completes (hw : Writes pb (Undisturbed env) start ws r)
    (hok : (perform pb r.nextId (items pb env r)).2 = none) :
    ∃ ws' r', Writes pb (Undisturbed env) start ws' r' ∧ r'.phase = .configComplete := by
  induction hlen : (items pb env r).length using Nat.strongRecOn generalizing ws r with
  | ind n ih =>
    have hp := proceed_proceeds pb env r.ack
    cases hturn : proceed pb env r.ack with
    | wrote data r' =>
      obtain ⟨hperform, hlt⟩ := perform_wrote hturn
      have hok' : (perform pb r'.nextId (items pb env r')).2 = none := by
        have hsnd := congrArg Prod.snd hperform
        exact hsnd.symm.trans hok
      exact ih _ (hlen ▸ hlt) (.next hw ⟨rfl, rfl⟩ hturn) hok' rfl
    | returned sent =>
      rw [hturn] at hp
      cases hp with
      | returned hp => exact ⟨ws, r, hw, hp⟩
    | raised e =>
      have hsnd := congrArg Prod.snd (perform_raised hturn)
      exact absurd (hok.symm.trans hsnd) nofun

/-- **A replay is its script**: undisturbed it writes what the script says, and it
returns just when nothing in the script raises. -/
theorem replays_iff {myNodeNum : NodeNum} {configId : UInt32} :
    Replays pb env myNodeNum configId ws ↔
      perform pb 1 (script pb env myNodeNum configId) = (ws, none) := by
  constructor
  · rintro ⟨r, hw, hp⟩
    have hperform := hw.performs
    rw [items_of_complete hp, perform, Prod.map_apply, List.append_nil] at hperform
    exact hperform
  · intro hperform
    have hok : (perform pb 1 (script pb env myNodeNum configId)).2 = none := by rw [hperform]
    cases hturn : proceed pb env (Replay.new myNodeNum configId) with
    | wrote data r =>
      have hfirst : Writes pb (Undisturbed env) (Replay.new myNodeNum configId) [data] r :=
        .first ⟨rfl, rfl⟩ hturn
      obtain ⟨hstep, -⟩ := perform_wrote hturn
      have hok' : (perform pb r.nextId (items pb env r)).2 = none :=
        (congrArg Prod.snd hstep).symm.trans hok
      obtain ⟨ws', r', hw, hp⟩ := hfirst.completes hok'
      have hsame := hw.performs
      rw [items_of_complete hp, perform, Prod.map_apply, List.append_nil] at hsame
      have hws : ws = ws' := congrArg Prod.fst (hperform.symm.trans hsame)
      exact ⟨r', hws ▸ hw, hp⟩
    | returned sent =>
      have hp := proceed_proceeds pb env (Replay.new myNodeNum configId)
      rw [hturn] at hp
      cases hp with
      | returned hp => cases hp
    | raised e =>
      have hsnd := congrArg Prod.snd (perform_raised hturn)
      exact absurd (hok.symm.trans hsnd) nofun

theorem replays_perform {myNodeNum : NodeNum} {configId : UInt32}
    (hok : (perform pb 1 (script pb env myNodeNum configId)).2 = none) :
    Replays pb env myNodeNum configId (perform pb 1 (script pb env myNodeNum configId)).1 :=
  replays_iff.mpr (Prod.ext rfl hok)

/-! ## What the client is sent -/

/-- The messages in what is written. -/
def received (pb : Protobuf E) (ws : List Bytes) : List (FromRadioVariant E) :=
  ws.filterMap fun data => (pb.parseFromRadio data).map (·.variant)

theorem received_cons (hrt : pb.FromRadioRoundTrip) {nextId : Nat} {variant : FromRadioVariant E}
    (he : encodeAs pb nextId variant = .ok data) (ws : List Bytes) :
    received pb (data :: ws) = variant :: received pb ws := by
  obtain ⟨-, rfl, -⟩ := encode_eq_ok_iff.mp he
  rw [received, List.filterMap_cons_some (b := variant)]
  · rfl
  · rw [hrt]
    rfl

/-! ## The parts of a script -/

theorem script_db (pb : Protobuf E) (env : Env) (myNodeNum : NodeNum) :
    script pb env myNodeNum nonceOnlyDb =
      .message (.nodeInfo (ownNodeInfo env (Replay.new myNodeNum nonceOnlyDb))) ::
        nodeItems env (Replay.new myNodeNum nonceOnlyDb) (sortedNodes env.cache) 0 := rfl

theorem script_full (myNodeNum : NodeNum) {configId : UInt32} (hid : configId ≠ nonceOnlyDb) :
    script pb env myNodeNum configId =
      .message (.myInfo (myNodeInfo env (Replay.new myNodeNum configId))) ::
        .message (.nodeInfo (ownNodeInfo env (Replay.new myNodeNum configId))) ::
          metadataItem pb env :: channelItems env (Replay.new myNodeNum configId) 0 0 := by
  refine (if_neg hid).trans ?_
  unfold ownItems afterOwnItems
  exact congrArg (fun more => _ :: _ :: more) (if_neg hid)

/-- What a script may take from the capture. -/
def Env.scripted (env : Env) : List Entry :=
  env.fallback env.cache.channels.length .channel ++ env.configEntries ++
    env.fallback (sortedNodes env.cache).length .nodeInfo

theorem mem_fallback {sent : Nat} {type : EntryType} {entry : Entry}
    (hm : entry ∈ env.fallback sent type) : entry ∈ env.capture.captured ∧ entry.type = type := by
  unfold Env.fallback Env.entries at hm
  split at hm
  · obtain ⟨hm, ht⟩ := List.mem_filter.mp hm
    exact ⟨hm, of_decide_eq_true ht⟩
  · cases hm

theorem mem_configEntries {entry : Entry} (hm : entry ∈ env.configEntries) :
    entry ∈ env.capture.captured ∧ skipped entry.type = false := by
  obtain ⟨hm, ht⟩ := List.mem_filter.mp hm
  exact ⟨hm, Bool.not_eq_true' _ ▸ ht⟩

theorem mem_captured_append {entries : List Entry} {rest : List (Item E)} {entry : Entry}
    (hm : .captured entry ∈ entries.map .captured ++ rest) :
    entry ∈ entries ∨ .captured entry ∈ rest := by
  refine (List.mem_append.mp hm).imp_left ?_
  intro hm
  obtain ⟨e, he, heq⟩ := List.mem_map.mp hm
  cases heq
  exact he

theorem mem_message_append {A : Type} {f : A → FromRadioVariant E} {l : List A}
    {rest : List (Item E)} {entry : Entry}
    (hm : .captured entry ∈ l.map (fun a => .message (f a)) ++ rest) : .captured entry ∈ rest := by
  refine (List.mem_append.mp hm).resolve_left ?_
  intro hm
  obtain ⟨a, -, heq⟩ := List.mem_map.mp hm
  cases heq

theorem mem_nodeItems {r : Replay} {entry : Entry}
    (hm : .captured entry ∈ (nodeItems env r (sortedNodes env.cache) 0 : List (Item E))) :
    entry ∈ env.scripted := by
  rcases mem_captured_append (mem_message_append hm) with hm | hm
  · rw [Nat.zero_add] at hm
    exact List.mem_append_right _ hm
  · cases List.mem_singleton.mp hm

theorem mem_channelItems {r : Replay} {entry : Entry}
    (hm : .captured entry ∈ (channelItems env r 0 0 : List (Item E))) :
    entry ∈ env.scripted := by
  rcases mem_captured_append (mem_message_append hm) with hm | hm
  · rw [List.drop_zero, Nat.zero_add] at hm
    exact List.mem_append_left _ (List.mem_append_left _ hm)
  · rcases mem_captured_append hm with hm | hm
    · exact List.mem_append_left _ (List.mem_append_right _ hm)
    · unfold afterConfigItems at hm
      split at hm
      · cases List.mem_singleton.mp hm
      · exact mem_nodeItems hm

theorem mem_script {myNodeNum : NodeNum} {configId : UInt32} {entry : Entry}
    (hm : .captured entry ∈ script pb env myNodeNum configId) : entry ∈ env.scripted := by
  by_cases hid : configId = nonceOnlyDb
  · subst hid
    rw [script_db] at hm
    rcases List.mem_cons.mp hm with heq | hm
    · cases heq
    · exact mem_nodeItems hm
  · rw [script_full myNodeNum hid] at hm
    rcases List.mem_cons.mp hm with heq | hm
    · cases heq
    · rcases List.mem_cons.mp hm with heq | hm
      · cases heq
      · rcases List.mem_cons.mp hm with heq | hm
        · unfold metadataItem at heq
          cases hmeta : metadataMessage pb env <;> rw [hmeta] at heq <;> cases heq
        · exact mem_channelItems hm

theorem mem_script_captured {myNodeNum : NodeNum} {configId : UInt32} {entry : Entry}
    (hm : .captured entry ∈ script pb env myNodeNum configId) :
    entry ∈ env.capture.captured := by
  rcases List.mem_append.mp (mem_script hm) with hm | hm
  · rcases List.mem_append.mp hm with hm | hm
    · exact (mem_fallback hm).1
    · exact (mem_configEntries hm).1
  · exact (mem_fallback hm).1

/-- A script ends in the ConfigComplete. -/
theorem script_suffix (pb : Protobuf E) (env : Env) (myNodeNum : NodeNum) (configId : UInt32) :
    [.message (.configCompleteId configId)] <:+ script pb env myNodeNum configId := by
  have hsynthetic (entries : List Entry) : [.message (.configCompleteId configId)] <:+
      (syntheticItems (Replay.new myNodeNum configId) entries : List (Item E)) :=
    List.suffix_append _ _
  have hnodes : [.message (.configCompleteId configId)] <:+
      (nodeItems env (Replay.new myNodeNum configId) (sortedNodes env.cache) 0 : List (Item E)) :=
    (hsynthetic _).trans (List.suffix_append _ _)
  by_cases hid : configId = nonceOnlyDb
  · subst hid
    exact hnodes.trans (List.suffix_cons _ _)
  · have hafter : [.message (.configCompleteId configId)] <:+
        (afterConfigItems env (Replay.new myNodeNum configId) : List (Item E)) := by
      unfold afterConfigItems
      split
      · exact hsynthetic []
      · exact hnodes
    rw [script_full myNodeNum hid]
    refine List.IsSuffix.trans ?_ (((List.suffix_cons _ _).trans (List.suffix_cons _ _)).trans
      (List.suffix_cons _ _))
    exact ((hafter.trans (List.suffix_append _ _)).trans (List.suffix_append _ _)).trans
      (List.suffix_append _ _)

end Multiplextashtic.ConfigReplay

import Mathlib.Logic.Relation
import Multiplextashtic.ConfigReplay

/-! # The steps of a replay

A turn moves from phase to phase until it has a message to write, which is all
it writes. `Skips` are the moves that write nothing, `Emits` is the message of a
phase: together they say what a turn can do. A replay that has written so much
is a chain of turns (`Writes`), each in the environment it finds. -/
namespace Multiplextashtic.ConfigReplay
open Multiplextashtic.Protocol Multiplextashtic.Messages Multiplextashtic.Config
open Multiplextashtic.Cache Multiplextashtic.Capture Relation

/-! ## Moves -/

/-- The replay stands elsewhere. -/
def Replay.goto (r : Replay) (phase : Phase) : Replay := { r with phase }

/-- The replay has written a message, and waits for the writer. -/
def Replay.wrote (r : Replay) (phase : Phase) : Replay := { r with nextId := r.nextId + 1, phase }

/-- The writer has drained. -/
def Replay.ack (r : Replay) : Replay := { r with sent := r.sent + 1 }

variable {E : Type} {pb : Protobuf E} {env : Env} {r r' : Replay} {data : Bytes}

/-- The loops over captured entries. -/
inductive Loop : (List Entry → Phase) → Prop
  | channel : Loop .capturedChannel
  | config : Loop .config
  | node : Loop .syntheticNode

/-- The entries a replay falls back on where it sent nothing from the cache. -/
def Env.fallback (env : Env) (sent : Nat) (type : EntryType) : List Entry :=
  if sent = 0 then env.entries type else []

/-- A move inside a turn that writes nothing. -/
inductive Skips (pb : Protobuf E) (env : Env) (r : Replay) : Replay → Prop
  | nodesOnly : r.phase = .ownNodeInfo → r.configId = nonceOnlyDb →
      Skips pb env r (r.goto (.knownNode (sortedNodes env.cache) 0))
  | channels : r.phase = .metadata → Skips pb env r (r.goto (.channel 0 0))
  | noChannel {next sent : Nat} : r.phase = .channel next sent →
      env.cache.channels[next]? = none →
      Skips pb env r (r.goto (.capturedChannel (env.fallback sent .channel)))
  | configs : r.phase = .capturedChannel [] → Skips pb env r (r.goto (.config env.configEntries))
  | configOnly : r.phase = .config [] → r.configId = nonceOnlyConfig →
      Skips pb env r (r.goto (.syntheticNode []))
  | nodes : r.phase = .config [] → r.configId ≠ nonceOnlyConfig →
      Skips pb env r (r.goto (.knownNode (sortedNodes env.cache) 0))
  | noNode {sent : Nat} : r.phase = .knownNode [] sent →
      Skips pb env r (r.goto (.syntheticNode (env.fallback sent .nodeInfo)))
  | unparsed {phase : List Entry → Phase} {entry : Entry} {rest : List Entry} : Loop phase →
      r.phase = phase (entry :: rest) → pb.parseFromRadio entry.data = none →
      Skips pb env r (r.goto (phase rest))
  | tooLarge {phase : List Entry → Phase} {entry : Entry} {rest : List Entry} {fr : FromRadio E}
      {e : PyError} : Loop phase → r.phase = phase (entry :: rest) →
      pb.parseFromRadio entry.data = some fr → encode pb r fr.variant = .error e →
      Skips pb env r (r.wrote (phase rest))

/-- The metadata message, unless what was captured does not parse. -/
def metadataMessage (pb : Protobuf E) (env : Env) : Option (FromRadioVariant E) :=
  match env.capture.captured.find? fun e => e.type = .metadata with
  | some entry => (pb.parseFromRadio entry.data).map fun fr => suffixed fr.variant
  | none => some (.metadata (defaultMetadata (defaultFirmware ++ versionSuffix)))

/-- A message of the replay's own, sent where it stands, and where it stands then. -/
inductive Sends (pb : Protobuf E) (env : Env) (r : Replay) : FromRadioVariant E → Phase → Prop
  | myInfo : r.phase = .start → r.configId ≠ nonceOnlyDb →
      Sends pb env r (.myInfo (myNodeInfo env r)) .myInfo
  | ownFirst : r.phase = .start → r.configId = nonceOnlyDb →
      Sends pb env r (.nodeInfo (ownNodeInfo env r)) .ownNodeInfo
  | ownNodeInfo : r.phase = .myInfo → Sends pb env r (.nodeInfo (ownNodeInfo env r)) .ownNodeInfo
  | metadata {variant : FromRadioVariant E} : r.phase = .ownNodeInfo → r.configId ≠ nonceOnlyDb →
      metadataMessage pb env = some variant → Sends pb env r variant .metadata
  | channel {next sent : Nat} {ch : CachedChannel} : r.phase = .channel next sent →
      env.cache.channels[next]? = some ch →
      Sends pb env r (.channel (channelInfo ch)) (.channel (next + 1) (sent + 1))
  | knownNode {num : NodeNum} {node : CachedNode} {rest : List (NodeNum × CachedNode)}
      {sent : Nat} : r.phase = .knownNode ((num, node) :: rest) sent →
      Sends pb env r (.nodeInfo (knownNodeInfo num node)) (.knownNode rest (sent + 1))
  | configComplete : r.phase = .syntheticNode [] →
      Sends pb env r (.configCompleteId r.configId) .configComplete

/-- The message a replay comes to: one of its own or a captured one. -/
inductive Emits (pb : Protobuf E) (env : Env) (r : Replay) : FromRadioVariant E → Phase → Prop
  | own {variant : FromRadioVariant E} {phase : Phase} : Sends pb env r variant phase →
      Emits pb env r variant phase
  | captured {phase : List Entry → Phase} {entry : Entry} {rest : List Entry} {fr : FromRadio E} :
      Loop phase → r.phase = phase (entry :: rest) → pb.parseFromRadio entry.data = some fr →
      Emits pb env r fr.variant (phase rest)

/-- Where a replay raises. -/
inductive Stuck (pb : Protobuf E) (env : Env) (r : Replay) : PyError → Prop
  | undecodable : r.phase = .ownNodeInfo → r.configId ≠ nonceOnlyDb →
      metadataMessage pb env = none → Stuck pb env r .decodeError
  | tooLarge {variant : FromRadioVariant E} {phase : Phase} {e : PyError} :
      Sends pb env r variant phase → encode pb r variant = .error e → Stuck pb env r e

/-! ## A turn by its moves

No part of a turn looks at the phase it was entered in. -/

theorem sendCaptured_unparsed {phase : List Entry → Phase} {done : Replay → Turn} {entry : Entry}
    (h : pb.parseFromRadio entry.data = none) (r : Replay) (rest : List Entry) :
    sendCaptured pb phase done r (entry :: rest) = sendCaptured pb phase done r rest := by
  rw [sendCaptured, h]

theorem sendCaptured_tooLarge {phase : List Entry → Phase} {done : Replay → Turn} {entry : Entry}
    {fr : FromRadio E} {e : PyError} (h : pb.parseFromRadio entry.data = some fr)
    (he : encode pb r fr.variant = .error e) (rest : List Entry) :
    sendCaptured pb phase done r (entry :: rest) =
      sendCaptured pb phase done { r with nextId := r.nextId + 1 } rest := by
  rw [sendCaptured, h]
  simp only [he]

theorem sendCaptured_fits {phase : List Entry → Phase} {done : Replay → Turn} {entry : Entry}
    {fr : FromRadio E} (h : pb.parseFromRadio entry.data = some fr)
    (he : encode pb r fr.variant = .ok data) (rest : List Entry) :
    sendCaptured pb phase done r (entry :: rest) = .wrote data (r.wrote (phase rest)) := by
  rw [sendCaptured, h]
  simp only [he]
  rfl

theorem sendCaptured_goto {phase : List Entry → Phase} {done : Replay → Turn}
    (hdone : ∀ r p, done (Replay.goto r p) = done r) (rest : List Entry) :
    ∀ (r : Replay) (p : Phase),
      sendCaptured pb phase done (r.goto p) rest = sendCaptured pb phase done r rest := by
  induction rest with
  | nil => exact hdone
  | cons entry rest ih =>
    intro r p
    cases hfr : pb.parseFromRadio entry.data with
    | none => rw [sendCaptured_unparsed hfr, sendCaptured_unparsed hfr, ih r p]
    | some fr =>
      cases he : encode pb r fr.variant with
      | error e =>
        have he' : encode pb (r.goto p) fr.variant = .error e := he
        rw [sendCaptured_tooLarge hfr he', sendCaptured_tooLarge hfr he]
        exact ih { r with nextId := r.nextId + 1 } p
      | ok data =>
        have he' : encode pb (r.goto p) fr.variant = .ok data := he
        rw [sendCaptured_fits hfr he', sendCaptured_fits hfr he]
        rfl

@[simp] theorem nextSyntheticNode_goto (r : Replay) (p : Phase) (rest : List Entry) :
    nextSyntheticNode pb (r.goto p) rest = nextSyntheticNode pb r rest :=
  sendCaptured_goto (fun _ _ => rfl) rest r p

@[simp] theorem nextKnownNode_goto (r : Replay) (p : Phase) (sent : Nat)
    (rest : List (NodeNum × CachedNode)) :
    nextKnownNode pb env (r.goto p) sent rest = nextKnownNode pb env r sent rest := by
  cases rest with
  | cons n rest => rfl
  | nil => rw [nextKnownNode, nextKnownNode, nextSyntheticNode_goto]; rfl

@[simp] theorem nextConfig_goto (r : Replay) (p : Phase) (rest : List Entry) :
    nextConfig pb env (r.goto p) rest = nextConfig pb env r rest := by
  refine sendCaptured_goto ?_ rest r p
  intro r p
  show (if r.configId = nonceOnlyConfig then _ else nextKnownNode pb env (r.goto p) 0 _) = _
  rw [nextKnownNode_goto]
  rfl

@[simp] theorem nextCapturedChannel_goto (r : Replay) (p : Phase) (rest : List Entry) :
    nextCapturedChannel pb env (r.goto p) rest = nextCapturedChannel pb env r rest :=
  sendCaptured_goto (fun r p => nextConfig_goto r p _) rest r p

/-- The loop a phase stands in, with what comes after it. -/
theorem Loop.proceed {phase : List Entry → Phase} (hl : Loop phase) (pb : Protobuf E) (env : Env) :
    ∃ done : Replay → Turn, (∀ r p, done (Replay.goto r p) = done r) ∧
      ∀ r rest, r.phase = phase rest → proceed pb env r = sendCaptured pb phase done r rest := by
  cases hl with
  | channel =>
    refine ⟨sendConfigs pb env, fun r p => nextConfig_goto r p _, ?_⟩
    intro r rest hp
    rw [ConfigReplay.proceed, hp]
    rfl
  | config =>
    have hgoto (r : Replay) (p : Phase) :
        nextConfig pb env (r.goto p) [] = nextConfig pb env r [] := nextConfig_goto r p []
    refine ⟨afterConfigs pb env, hgoto, ?_⟩
    intro r rest hp
    rw [ConfigReplay.proceed, hp]
    rfl
  | node =>
    refine ⟨sendConfigComplete pb, fun _ _ => rfl, ?_⟩
    intro r rest hp
    rw [ConfigReplay.proceed, hp]
    rfl

/-- **A move that writes nothing leaves the turn as it is.** -/
theorem proceed_skips (hs : Skips pb env r r') : proceed pb env r = proceed pb env r' := by
  have hnodes (sent : Nat) (rest : List (NodeNum × CachedNode)) :
      proceed pb env (r.goto (.knownNode rest sent)) = nextKnownNode pb env r sent rest :=
    nextKnownNode_goto r _ sent rest
  have hconfig (rest : List Entry) :
      proceed pb env (r.goto (.config rest)) = nextConfig pb env r rest := nextConfig_goto r _ rest
  have hchannel (rest : List Entry) :
      proceed pb env (r.goto (.capturedChannel rest)) = nextCapturedChannel pb env r rest :=
    nextCapturedChannel_goto r _ rest
  have hsynthetic (rest : List Entry) :
      proceed pb env (r.goto (.syntheticNode rest)) = nextSyntheticNode pb r rest :=
    nextSyntheticNode_goto r _ rest
  cases hs with
  | nodesOnly hp hid =>
    rw [hnodes, proceed, hp]
    exact if_pos hid
  | channels hp =>
    rw [proceed, hp]
    show nextChannel pb env r 0 0 = nextChannel pb env (r.goto (.channel 0 0)) 0 0
    unfold nextChannel
    cases env.cache.channels[0]? with
    | some ch => rfl
    | none =>
      show nextCapturedChannel pb env r _ = nextCapturedChannel pb env (r.goto _) _
      rw [nextCapturedChannel_goto]
  | @noChannel next sent hp hch =>
    rw [hchannel, proceed, hp]
    show nextChannel pb env r next sent = _
    rw [nextChannel, hch]
    unfold Env.fallback
    by_cases h0 : sent = 0
    · simp only [h0, if_true]
    · simp only [h0, if_false]
      rfl
  | configs hp =>
    rw [hconfig, proceed, hp]
    rfl
  | configOnly hp hid =>
    rw [hsynthetic, proceed, hp]
    exact if_pos hid
  | nodes hp hid =>
    rw [hnodes, proceed, hp]
    exact if_neg hid
  | @noNode sent hp =>
    rw [hsynthetic, proceed, hp]
    show nextKnownNode pb env r sent [] = _
    rw [nextKnownNode]
    unfold Env.fallback
    by_cases h0 : sent = 0
    · simp only [h0, if_true]
    · simp only [h0, if_false]
      rfl
  | unparsed hl hp hfr =>
    obtain ⟨done, hdone, hproceed⟩ := hl.proceed pb env
    rw [hproceed r _ hp, hproceed (r.goto _) _ rfl, sendCaptured_goto hdone,
      sendCaptured_unparsed hfr]
  | tooLarge hl hp hfr he =>
    obtain ⟨done, hdone, hproceed⟩ := hl.proceed pb env
    rw [hproceed r _ hp, hproceed (r.wrote _) _ rfl, sendCaptured_tooLarge hfr he]
    exact (sendCaptured_goto hdone _ { r with nextId := r.nextId + 1 } _).symm

theorem sendMetadata_eq (env : Env) (r : Replay) :
    sendMetadata pb env r = match metadataMessage pb env with
      | some variant => sendFr pb r variant .metadata
      | none => .raised .decodeError := by
  unfold sendMetadata metadataMessage
  cases env.capture.captured.find? fun e => e.type = .metadata with
  | none => rfl
  | some entry => cases hfr : pb.parseFromRadio entry.data <;> simp [hfr]

theorem proceed_sends {variant : FromRadioVariant E} {phase : Phase}
    (h : Sends pb env r variant phase) : proceed pb env r = sendFr pb r variant phase := by
  cases h with
  | myInfo hp hid =>
    rw [proceed, hp]
    exact if_neg hid
  | ownFirst hp hid =>
    rw [proceed, hp]
    exact if_pos hid
  | ownNodeInfo hp =>
    rw [proceed, hp]
    rfl
  | metadata hp hid hm =>
    rw [proceed, hp]
    refine (if_neg hid).trans ?_
    rw [sendMetadata_eq, hm]
  | channel hp hch =>
    rw [proceed, hp]
    show nextChannel pb env r _ _ = _
    rw [nextChannel, hch]
  | knownNode hp =>
    rw [proceed, hp]
    rfl
  | configComplete hp =>
    rw [proceed, hp]
    rfl

/-- **A message that can be framed is written.** -/
theorem proceed_emits {variant : FromRadioVariant E} {phase : Phase}
    (h : Emits pb env r variant phase) (he : encode pb r variant = .ok data) :
    proceed pb env r = .wrote data (r.wrote phase) := by
  cases h with
  | own hs =>
    rw [proceed_sends hs, sendFr, he]
    rfl
  | captured hl hp hfr =>
    obtain ⟨done, -, hproceed⟩ := hl.proceed pb env
    rw [hproceed r _ hp, sendCaptured_fits hfr he]

theorem proceed_stuck {e : PyError} (h : Stuck pb env r e) : proceed pb env r = .raised e := by
  cases h with
  | undecodable hp hid hm =>
    rw [proceed, hp]
    refine (if_neg hid).trans ?_
    rw [sendMetadata_eq, hm]
  | tooLarge hs he => rw [proceed_sends hs, sendFr, he]

/-! ## Every turn settles -/

/-- The phases in the order a replay goes through them. -/
def Phase.rank : Phase → Nat
  | .start => 0
  | .myInfo => 1
  | .ownNodeInfo => 2
  | .metadata => 3
  | .channel _ _ => 4
  | .capturedChannel _ => 5
  | .config _ => 6
  | .knownNode _ _ => 7
  | .syntheticNode _ => 8
  | .configComplete => 9

theorem Loop.rank {phase : List Entry → Phase} (hl : Loop phase) (rest : List Entry) :
    2 ≤ (phase rest).rank := by
  cases hl <;> simp [Phase.rank]

/-- A move goes on to a later phase, or through the entries of a loop. -/
theorem Skips.progress (hs : Skips pb env r r') :
    r'.phase.rank ≤ 8 ∧ (r.phase.rank < r'.phase.rank ∨
      r.phase.rank = r'.phase.rank ∧ r'.phase.pending.length < r.phase.pending.length) := by
  have hloop {phase : List Entry → Phase} {entry : Entry} {rest : List Entry} {p : Phase}
      (hl : Loop phase) (hp : r.phase = phase (entry :: rest)) (hp' : p = phase rest) :
      p.rank ≤ 8 ∧ (r.phase.rank < p.rank ∨
        r.phase.rank = p.rank ∧ p.pending.length < r.phase.pending.length) := by
    rw [hp, hp']
    cases hl <;> exact ⟨by simp [Phase.rank], .inr ⟨rfl, Nat.lt_succ_self _⟩⟩
  cases hs with
  | unparsed hl hp => exact hloop hl hp rfl
  | tooLarge hl hp => exact hloop hl hp rfl
  | _ => simp_all [Replay.goto, Phase.rank]

/-- A replay that has no move left: it has written its last message, comes to one
that can be framed, or raises. -/
inductive Settled (pb : Protobuf E) (env : Env) (r : Replay) : Prop
  | complete : r.phase = .configComplete → Settled pb env r
  | emits {variant : FromRadioVariant E} {phase : Phase} {data : Bytes} :
      Emits pb env r variant phase → encode pb r variant = .ok data → Settled pb env r
  | stuck {e : PyError} : Stuck pb env r e → Settled pb env r

theorem Sends.settled {variant : FromRadioVariant E} {phase : Phase}
    (h : Sends pb env r variant phase) : Settled pb env r := by
  cases he : encode pb r variant with
  | ok data => exact .emits (.own h) he
  | error e => exact .stuck (.tooLarge h he)

theorem Loop.settled_or_skips {phase : List Entry → Phase} {entry : Entry} {rest : List Entry}
    (hl : Loop phase) (hp : r.phase = phase (entry :: rest)) :
    Settled pb env r ∨ ∃ r', Skips pb env r r' := by
  cases hfr : pb.parseFromRadio entry.data with
  | none => exact .inr ⟨_, .unparsed hl hp hfr⟩
  | some fr =>
    cases he : encode pb r fr.variant with
    | ok data => exact .inl (.emits (.captured hl hp hfr) he)
    | error e => exact .inr ⟨_, .tooLarge hl hp hfr he⟩

theorem settled_or_skips (pb : Protobuf E) (env : Env) (r : Replay) :
    Settled pb env r ∨ ∃ r', Skips pb env r r' := by
  cases hp : r.phase with
  | start =>
    by_cases hid : r.configId = nonceOnlyDb
    · exact .inl (Sends.ownFirst hp hid).settled
    · exact .inl (Sends.myInfo hp hid).settled
  | myInfo => exact .inl (Sends.ownNodeInfo hp).settled
  | ownNodeInfo =>
    by_cases hid : r.configId = nonceOnlyDb
    · exact .inr ⟨_, .nodesOnly hp hid⟩
    · cases hm : metadataMessage pb env with
      | some variant => exact .inl (Sends.metadata hp hid hm).settled
      | none => exact .inl (.stuck (.undecodable hp hid hm))
  | metadata => exact .inr ⟨_, .channels hp⟩
  | channel next sent =>
    cases hch : env.cache.channels[next]? with
    | some ch => exact .inl (Sends.channel hp hch).settled
    | none => exact .inr ⟨_, .noChannel hp hch⟩
  | capturedChannel rest =>
    cases rest with
    | nil => exact .inr ⟨_, .configs hp⟩
    | cons entry rest => exact Loop.channel.settled_or_skips hp
  | config rest =>
    cases rest with
    | nil =>
      by_cases hid : r.configId = nonceOnlyConfig
      · exact .inr ⟨_, .configOnly hp hid⟩
      · exact .inr ⟨_, .nodes hp hid⟩
    | cons entry rest => exact Loop.config.settled_or_skips hp
  | knownNode rest sent =>
    cases rest with
    | nil => exact .inr ⟨_, .noNode hp⟩
    | cons n rest => exact .inl (Sends.knownNode hp).settled
  | syntheticNode rest =>
    cases rest with
    | nil => exact .inl (Sends.configComplete hp).settled
    | cons entry rest => exact Loop.node.settled_or_skips hp
  | configComplete => exact .inl (.complete hp)

/-- Every turn comes to a message, to its end or to an error. -/
theorem settles (pb : Protobuf E) (env : Env) (r : Replay) :
    ∃ r₁, ReflTransGen (Skips pb env) r r₁ ∧ Settled pb env r₁ := by
  rcases settled_or_skips pb env r with h | ⟨r', hs⟩
  · exact ⟨r, .refl, h⟩
  · obtain ⟨r₁, hr, h⟩ := settles pb env r'
    exact ⟨r₁, .head hs hr, h⟩
termination_by (9 - r.phase.rank, r.phase.pending.length)
decreasing_by
  obtain ⟨hle, hlt | ⟨heq, hlt⟩⟩ := hs.progress
  · exact Prod.Lex.left _ _ (by omega)
  · rw [heq]
    exact Prod.Lex.right _ hlt

theorem proceed_settles (hr : ReflTransGen (Skips pb env) r r') :
    proceed pb env r = proceed pb env r' := by
  induction hr with
  | refl => rfl
  | tail _ hs ih => exact ih.trans (proceed_skips hs)

theorem skips_configComplete (hr : ReflTransGen (Skips pb env) r r')
    (hp : r'.phase = .configComplete) : r = r' := by
  rcases hr.cases_tail with rfl | ⟨r₁, -, hs⟩
  · rfl
  · obtain ⟨hle, -⟩ := hs.progress
    rw [hp] at hle
    exact absurd hle (by decide)

/-- **What a turn can do**: it writes the message it comes to, returns behind the
last one, or raises where it is stuck. -/
inductive Proceeds (pb : Protobuf E) (env : Env) (r : Replay) : Turn → Prop
  | wrote {r₁ : Replay} {variant : FromRadioVariant E} {phase : Phase} {data : Bytes} :
      ReflTransGen (Skips pb env) r r₁ → Emits pb env r₁ variant phase →
      encode pb r₁ variant = .ok data → Proceeds pb env r (.wrote data (r₁.wrote phase))
  | returned : r.phase = .configComplete → Proceeds pb env r (.returned r.sent)
  | raised {r₁ : Replay} {e : PyError} : ReflTransGen (Skips pb env) r r₁ → Stuck pb env r₁ e →
      Proceeds pb env r (.raised e)

theorem proceed_proceeds (pb : Protobuf E) (env : Env) (r : Replay) :
    Proceeds pb env r (proceed pb env r) := by
  obtain ⟨r₁, hr, hset⟩ := settles pb env r
  cases hset with
  | complete hp =>
    rw [← skips_configComplete hr hp] at hp
    rw [proceed, hp]
    exact .returned hp
  | emits hem he =>
    rw [proceed_settles hr, proceed_emits hem he]
    exact .wrote hr hem he
  | stuck hst =>
    rw [proceed_settles hr, proceed_stuck hst]
    exact .raised hr hst

/-! ## What a replay has written -/

/-- The drain behind a write returns, or raises. -/
def resume (pb : Protobuf E) (env : Env) (r : Replay) : Option PyError → Turn
  | none => drained pb env r
  | some e => drainRaised pb env r e

theorem drainRaised_cases (pb : Protobuf E) (env : Env) (r : Replay) (e : PyError) :
    drainRaised pb env r e = .raised e ∨ drainRaised pb env r e = proceed pb env r ∧
      ∃ phase rest, Loop phase ∧ r.phase = phase rest := by
  unfold drainRaised
  split
  · next rest hp => exact .inr ⟨rfl, _, rest, .channel, hp⟩
  · next rest hp => exact .inr ⟨rfl, _, rest, .config, hp⟩
  · next rest hp => exact .inr ⟨rfl, _, rest, .node, hp⟩
  · exact .inl rfl

/-- The replay `start` has written `ws` and waits in `r`. `C` says in which
environments its turns run, and how its drains end. -/
inductive Writes (pb : Protobuf E) (C : Env → Option PyError → Prop) (start : Replay) :
    List Bytes → Replay → Prop
  | first {env : Env} {data : Bytes} {r : Replay} : C env none →
      proceed pb env start = .wrote data r → Writes pb C start [data] r
  | next {env : Env} {lost : Option PyError} {ws : List Bytes} {data : Bytes} {r r' : Replay} :
      Writes pb C start ws r → C env lost → resume pb env r lost = .wrote data r' →
      Writes pb C start (ws ++ [data]) r'

variable {C : Env → Option PyError → Prop} {start : Replay} {ws : List Bytes}
  {I : List Bytes → Replay → Prop}

/-- What every turn keeps, every replay keeps: `J` holds inside a turn, in its
environment, and `I` at the waits between turns. -/
theorem Writes.keepsIn {J : Env → List Bytes → Replay → Prop} (hw : Writes pb C start ws r)
    (hstart : ∀ env, C env none → J env [] start)
    (hturn : ∀ env lost ws r sent, C env lost → I ws r → J env ws { r with sent })
    (hskip : ∀ env lost ws r r', C env lost → Skips pb env r r' → J env ws r → J env ws r')
    (hemit : ∀ env lost ws r variant phase data, C env lost → Emits pb env r variant phase →
      encode pb r variant = .ok data → J env ws r → I (ws ++ [data]) (r.wrote phase)) : I ws r := by
  have hwrites {env : Env} {lost : Option PyError} {ws : List Bytes} {data : Bytes} {r r' : Replay}
      (hc : C env lost) (hi : J env ws r) (hp : proceed pb env r = .wrote data r') :
      I (ws ++ [data]) r' := by
    have hp' := proceed_proceeds pb env r
    rw [hp] at hp'
    cases hp' with
    | wrote hr hem he =>
      refine hemit env lost ws _ _ _ _ hc hem he ?_
      clear hem he hp
      induction hr with
      | refl => exact hi
      | tail _ hs ih => exact hskip env lost ws _ _ hc hs ih
  induction hw with
  | first hc hp => exact hwrites hc (hstart _ hc) hp
  | @next env lost ws data r r' _ hc hp ih =>
    cases lost with
    | none => exact hwrites hc (hturn env none ws r (r.sent + 1) hc ih) hp
    | some e =>
      change drainRaised pb env r e = _ at hp
      rcases drainRaised_cases pb env r e with hraised | ⟨hproceeds, -⟩
      · rw [hraised] at hp
        cases hp
      · rw [hproceeds] at hp
        exact hwrites hc (hturn env (some e) ws r r.sent hc ih) hp

/-- What every move of a replay keeps, every replay keeps. -/
theorem Writes.keeps (hw : Writes pb C start ws r) (hstart : I [] start)
    (hturn : ∀ ws r sent, I ws r → I ws { r with sent })
    (hskip : ∀ env lost ws r r', C env lost → Skips pb env r r' → I ws r → I ws r')
    (hemit : ∀ env lost ws r variant phase data, C env lost → Emits pb env r variant phase →
      encode pb r variant = .ok data → I ws r → I (ws ++ [data]) (r.wrote phase)) : I ws r :=
  hw.keepsIn (J := fun _ => I) (fun _ _ => hstart) (fun _ _ ws r sent _ => hturn ws r sent) hskip
    hemit

theorem Writes.mono {D : Env → Option PyError → Prop} (hw : Writes pb C start ws r)
    (hC : ∀ env lost, C env lost → D env lost) : Writes pb D start ws r := by
  induction hw with
  | first hc hp => exact .first (hC _ _ hc) hp
  | next _ hc hp ih => exact .next ih (hC _ _ hc) hp

theorem Skips.same (hs : Skips pb env r r') :
    r'.configId = r.configId ∧ r'.nodeNum = r.nodeNum ∧ r'.sent = r.sent := by
  cases hs <;> exact ⟨rfl, rfl, rfl⟩

theorem encode_eq_ok_iff {variant : FromRadioVariant E} :
    encode pb r variant = .ok data ↔ r.nextId < 2 ^ 32 ∧
      data = pb.serializeFromRadio ⟨UInt32.ofNat r.nextId, variant⟩ ∧
      data.length ≤ maxPacketSize := by
  unfold encode encodeFrame
  split
  · next hid => exact iff_of_false nofun fun h => absurd h.1 (Nat.not_lt.mpr hid)
  · next hid =>
    simp only
    split
    · next hlen =>
      refine iff_of_false nofun ?_
      rintro ⟨-, rfl, hle⟩
      exact absurd hle (Nat.not_le.mpr hlen)
    · next hlen =>
      constructor
      · intro he
        cases he
        exact ⟨Nat.lt_of_not_le hid, rfl, Nat.le_of_not_lt hlen⟩
      · rintro ⟨-, rfl, -⟩
        rfl

theorem Emits.configComplete {variant : FromRadioVariant E} {phase : Phase}
    (h : Emits pb env r variant phase) (hp : phase = .configComplete) :
    variant = .configCompleteId r.configId := by
  cases h with
  | own hs =>
    cases hs with
    | configComplete => rfl
    | _ => cases hp
  | captured hl => cases hl <;> cases hp

/-- A replay that waits in its last phase has ended in the ConfigComplete it owed. -/
theorem Writes.ends (hw : Writes pb C start ws r) (hstart : start.phase ≠ .configComplete)
    (hp : r.phase = .configComplete) :
    ∃ before id, ws = before ++ [pb.serializeFromRadio ⟨id, .configCompleteId start.configId⟩] := by
  suffices h : r.configId = start.configId ∧ (r.phase = .configComplete → ∃ before id,
      ws = before ++ [pb.serializeFromRadio ⟨id, .configCompleteId start.configId⟩]) from h.2 hp
  refine hw.keeps (I := fun ws r => r.configId = start.configId ∧ (r.phase = .configComplete →
    ∃ before id, ws = before ++ [pb.serializeFromRadio ⟨id, .configCompleteId start.configId⟩]))
    ⟨rfl, fun h => absurd h hstart⟩ (fun _ _ _ h => h) ?_ ?_
  · rintro env lost ws r r' - hs ⟨hid, -⟩
    obtain ⟨hsame, -, -⟩ := hs.same
    refine ⟨hsame.trans hid, ?_⟩
    intro hp
    obtain ⟨hle, -⟩ := hs.progress
    rw [hp] at hle
    exact absurd hle (by decide)
  · rintro env lost ws r variant phase data - hem he ⟨hid, -⟩
    refine ⟨hid, ?_⟩
    intro hp
    obtain ⟨-, rfl, -⟩ := encode_eq_ok_iff.mp he
    exact ⟨ws, _, by rw [hem.configComplete hp, hid]⟩

end Multiplextashtic.ConfigReplay

import Multiplextashtic.Lib.Interleaving
import Multiplextashtic.RadioLink
import Multiplextashtic.ReadLoop

/-! # The stream to the physical node

A connection is given the wake bytes of a serial line, a request for the config and
then messages, each in a frame. The invariant says how far the connection opened
last has come; the others stay as they were left. -/
namespace Multiplextashtic.PhysicalNode
open Multiplextashtic.Protocol Multiplextashtic.Messages Multiplextashtic.ReadLoop Run Sole

variable {E : Type} {pb : Protobuf E} {m m' : PhysicalNodeManager} {l l' : RadioLink}

/-! ## What a stream carries -/

/-- The messages that went out, with their connections. -/
def sent (calls : List (Option Nat × Bytes)) : List (Nat × Bytes) :=
  calls.filterMap fun c => c.1.map (·, c.2)

/-- The messages that went out on one connection. -/
def sentOn (l : RadioLink) (k : Nat) : List Bytes := Interleaving.part (sent l.calls) k

def greeting (serial : Bool) : Bytes := if serial then wakeBytes else []

/-- The whole handshake, and the frames of the messages behind it. -/
structure Greeted (pb : Protobuf E) (serial : Bool) (bytes : Bytes) (msgs : List Bytes) : Prop where
  fits : ∀ msg ∈ msgs, msg.length ≤ maxPacketSize
  bytes_eq : ∃ nonce, bytes = greeting serial ++ stream (wantConfig pb nonce :: msgs)

/-- The wake bytes alone. -/
structure Woken (serial : Bool) (bytes : Bytes) (msgs : List Bytes) : Prop where
  serial : serial = true
  bytes_eq : bytes = wakeBytes
  none_sent : msgs = []

/-- The connection opened last, by its bytes and its messages. -/
def Last (l : RadioLink) (P : Bytes → List Bytes → Prop) : Prop :=
  ∃ before bytes, l.streams = before ++ [bytes] ∧ P bytes (sentOn l before.length)

/-- How far the handshake is when `_do_connect` stands at an await. -/
def Stage (pb : Protobuf E) (l : RadioLink) : ConnectAwait → Prop
  | .openConnection => True
  | .wake => Last l (Woken l.manager.config.serial)
  | .settle => Last l (Woken l.manager.config.serial)
  | .wantConfig => Last l (Greeted pb l.manager.config.serial)

structure Linked (pb : Protobuf E) (l : RadioLink) : Prop where
  loops : Loops l.manager
  carries : ∀ k bytes, l.streams[k]? = some bytes →
    Woken l.manager.config.serial bytes (sentOn l k) ∨
      Greeted pb l.manager.config.serial bytes (sentOn l k)
  opened : ∀ c ∈ sent l.calls, c.1 < l.streams.length
  ordered : ((sent l.calls).map Prod.fst).Pairwise (· ≤ ·)
  stage : ∀ await, Connects l.manager await → Stage pb l await
  up : l.manager.connected = true → Last l (Greeted pb l.manager.config.serial)

theorem write_concat (before : List Bytes) (bytes more : Bytes) :
    write (before ++ [bytes]) more = before ++ [bytes ++ more] := by
  refine List.ext_getElem? ?_
  intro k
  rw [write, List.getElem?_modify, List.length_append, List.length_singleton, Nat.add_sub_cancel]
  rcases Nat.lt_trichotomy k before.length with hlt | rfl | hgt
  · have hne : before.length ≠ k := Nat.ne_of_gt hlt
    simp [List.getElem?_append_left hlt, hne]
  · simp
  · rw [List.getElem?_eq_none (by simp; omega), List.getElem?_eq_none (by simp; omega)]
    rfl

theorem wantConfig_fits (hw : pb.WantConfigSize) (nonce : UInt32) :
    (wantConfig pb nonce).length ≤ maxPacketSize := by
  have hlog : nonce.toNat.log2 < 32 := by
    by_cases h0 : nonce.toNat = 0
    · rw [h0]
      decide
    · exact (Nat.log2_lt h0).mpr nonce.toNat_lt
  rw [wantConfig, hw, Protobuf.varintSize, maxPacketSize]
  omega

theorem sendWantConfig_concat (hw : pb.WantConfigSize) (before : List Bytes) (bytes : Bytes)
    (nonce : UInt32) : sendWantConfig pb (before ++ [bytes]) nonce =
      before ++ [bytes ++ stream [wantConfig pb nonce]] := by
  rw [sendWantConfig, encodeFrame_ok (wantConfig_fits hw nonce)]
  simp only [write_concat]
  simp [stream]

/-- How a handshake begins. -/
theorem handshake_open (hw : pb.WantConfigSize) (serial : Bool) (streams : List Bytes)
    (nonce : UInt32) : ∃ bytes, handshake pb serial streams nonce .openConnection =
      streams ++ [bytes] ∧
        if serial then Woken serial bytes [] else Greeted pb serial bytes [] := by
  cases serial with
  | true => exact ⟨wakeBytes, write_concat streams [] wakeBytes, rfl, rfl, rfl⟩
  | false =>
    refine ⟨stream [wantConfig pb nonce], sendWantConfig_concat hw streams [] nonce, ?_, nonce, rfl⟩
    exact List.forall_mem_nil _

/-- The wake bytes are followed by the request for the config. -/
theorem handshake_settle (hw : pb.WantConfigSize) {serial : Bool} {before : List Bytes}
    {bytes : Bytes} {msgs : List Bytes} (h : Woken serial bytes msgs) (nonce : UInt32) :
    ∃ bytes', handshake pb serial (before ++ [bytes]) nonce .settle = before ++ [bytes'] ∧
      Greeted pb serial bytes' msgs := by
  obtain ⟨rfl, rfl, rfl⟩ := h
  exact ⟨_, sendWantConfig_concat hw before wakeBytes nonce, List.forall_mem_nil _, nonce, rfl⟩

/-! ## Steps -/

theorem concat_get {α : Type} {before : List α} {a b : α} {k : Nat}
    (h : (before ++ [a])[k]? = some b) : before[k]? = some b ∨ k = before.length ∧ b = a := by
  rcases Nat.lt_trichotomy k before.length with hlt | rfl | hgt
  · rw [List.getElem?_append_left hlt] at h
    exact .inl h
  · rw [List.getElem?_concat_length] at h
    exact .inr ⟨rfl, (Option.some.inj h).symm⟩
  · rw [List.getElem?_eq_none (by simp; omega)] at h
    cases h

theorem prefix_get {α : Type} {before : List α} {a b : α} {k : Nat} (h : before[k]? = some b) :
    (before ++ [a])[k]? = some b := by
  obtain ⟨hlt, -⟩ := List.getElem?_eq_some_iff.mp h
  rwa [List.getElem?_append_left hlt]

theorem Stage.of_manager {await : ConnectAwait} (h : Stage pb l await)
    (hserial : m'.config.serial = l.manager.config.serial) :
    Stage pb { l with manager := m' } await := by
  cases await with
  | openConnection => trivial
  | wake | settle =>
    show Last _ (Woken m'.config.serial)
    rw [hserial]
    exact h
  | wantConfig =>
    show Last _ (Greeted pb m'.config.serial)
    rw [hserial]
    exact h

/-- Nothing has gone out on a connection yet to be opened. -/
theorem Linked.sentOn_next (h : Linked pb l) : sentOn l l.streams.length = [] :=
  Interleaving.part_eq_nil fun c hc => Nat.ne_of_lt (h.opened c hc)

theorem Linked.task (hw : pb.WantConfigSize) (h : Linked pb l) {e : Event} {nonce : UInt32}
    (hs : step l.manager e = some m') :
    Linked pb { l with
      manager := m'
      streams := (connectReturns l.manager e).elim l.streams
        (handshake pb m'.config.serial l.streams nonce) } := by
  have hloops := h.loops.step hs
  have hmoves := step_moves h.loops hs
  have hserial : m'.config.serial = l.manager.config.serial := by rw [config_step hs]
  generalize connectReturns l.manager e = await at hmoves
  rw [hserial]
  cases hmoves with
  | quiet hq =>
    refine ⟨hloops, ?_, h.opened, h.ordered, ?_, ?_⟩
    · rw [hserial]
      exact h.carries
    · intro await hc
      rcases hq.connects await hc with rfl | hc
      · trivial
      · exact (h.stage await hc).of_manager hserial
    · intro hup
      rw [hserial]
      exact h.up (hq.connected hup)
  | @awaits await next hc hnext hdown honly =>
    have hdown' : ∀ P : Prop, m'.connected = true → P := by
      intro P hup
      rw [hdown] at hup
      cases hup
    have hat {l' : RadioLink} (hm : l'.manager = m') (hstage : Stage pb l' next) :
        ∀ a, Connects m' a → Stage pb l' a := fun a ha => honly a ha ▸ hstage
    cases await with
    | openConnection =>
      obtain ⟨bytes, hopen, hbytes⟩ :=
        handshake_open hw l.manager.config.serial l.streams nonce
      have hnone := h.sentOn_next
      rw [Option.elim_some, hopen]
      refine ⟨hloops, ?_, ?_, h.ordered, hat rfl ?_, hdown' _⟩
      · intro k bytes' hk
        rw [hserial]
        rcases concat_get hk with hk | ⟨rfl, rfl⟩
        · exact h.carries k bytes' hk
        · show Woken _ _ (sentOn l _) ∨ Greeted pb _ _ (sentOn l _)
          rw [hnone]
          split at hbytes
          · exact .inl hbytes
          · exact .inr hbytes
      · intro c hc
        rw [List.length_append]
        exact Nat.lt_add_right _ (h.opened c hc)
      · cases hnext
        have hlast {P : Bytes → List Bytes → Prop} (hP : P bytes []) : Last
            { l with manager := m', streams := l.streams ++ [bytes] } P :=
          ⟨l.streams, bytes, rfl, hnone.symm ▸ hP⟩
        split at hbytes
        · next hs => 
          rw [if_pos hs]
          exact hlast (hserial.symm ▸ hbytes)
        · next hs =>
          rw [if_neg hs]
          exact hlast (hserial.symm ▸ hbytes)
    | wake =>
      cases hnext
      refine ⟨hloops, ?_, h.opened, h.ordered, hat rfl ?_, hdown' _⟩
      · rw [hserial]
        exact h.carries
      · show Last _ (Woken m'.config.serial)
        rw [hserial]
        exact h.stage _ hc
    | settle =>
      cases hnext
      obtain ⟨before, bytes, hstreams, hwoken⟩ := h.stage _ hc
      obtain ⟨bytes', hsettle, hgreeted⟩ := handshake_settle hw hwoken nonce
      rw [Option.elim_some, hstreams, hsettle]
      refine ⟨hloops, ?_, ?_, h.ordered, hat rfl ?_, hdown' _⟩
      · intro k bytes'' hk
        rw [hserial]
        rcases concat_get hk with hk | ⟨rfl, rfl⟩
        · exact h.carries k bytes'' (hstreams ▸ prefix_get hk)
        · exact .inr hgreeted
      · intro c hc
        have hlt := h.opened c hc
        rw [hstreams, List.length_append] at hlt
        rwa [List.length_append]
      · exact ⟨before, bytes', rfl, hserial.symm ▸ hgreeted⟩
    | wantConfig => cases hnext
  | connects hc hnone =>
    refine ⟨hloops, ?_, h.opened, h.ordered, ?_, ?_⟩
    · rw [hserial]
      exact h.carries
    · intro await hc'
      exact absurd hc' (hnone await)
    · intro _
      rw [hserial]
      exact h.stage _ hc

/-- A message that is dropped. -/
theorem Linked.dropped (h : Linked pb l) (raw : Bytes) :
    Linked pb { l with calls := l.calls ++ [(none, raw)] } := by
  have hsent : sent (l.calls ++ [(none, raw)]) = sent l.calls := by simp [sent]
  have hsentOn (k : Nat) : sentOn { l with calls := l.calls ++ [(none, raw)] } k = sentOn l k := by
    rw [sentOn, hsent, sentOn]
  have hlast {P : Bytes → List Bytes → Prop} (hl : Last l P) :
      Last { l with calls := l.calls ++ [(none, raw)] } P := by
    obtain ⟨before, bytes, hs, hP⟩ := hl
    exact ⟨before, bytes, hs, (hsentOn _).symm ▸ hP⟩
  refine ⟨h.loops, ?_, ?_, ?_, ?_, fun hup => hlast (h.up hup)⟩
  · intro k bytes hk
    rw [hsentOn]
    exact h.carries k bytes hk
  · rw [hsent]
    exact h.opened
  · rw [hsent]
    exact h.ordered
  · intro await hc
    have hstage := h.stage await hc
    cases await with
    | openConnection => trivial
    | wake | settle | wantConfig => exact hlast hstage

/-- A message that goes out on the connection that is up. -/
theorem Linked.written (h : Linked pb l) {raw : Bytes} (hup : l.manager.connected = true)
    (hfits : raw.length ≤ maxPacketSize) :
    Linked pb { l with
      streams := write l.streams (frame raw)
      calls := l.calls ++ [(some (l.streams.length - 1), raw)] } := by
  obtain ⟨before, bytes, hstreams, hgreeted⟩ := h.up hup
  have hindex : l.streams.length - 1 = before.length := by simp [hstreams]
  have hsent : sent (l.calls ++ [(some before.length, raw)]) =
      sent l.calls ++ [(before.length, raw)] := by simp [sent]
  have hmore : Greeted pb l.manager.config.serial (bytes ++ frame raw)
      (sentOn l before.length ++ [raw]) := by
    obtain ⟨hmsgs, nonce, hbytes⟩ := hgreeted
    refine ⟨?_, nonce, ?_⟩
    · intro msg hm
      rcases List.mem_append.mp hm with hm | hm
      · exact hmsgs msg hm
      · rw [List.mem_singleton.mp hm]
        exact hfits
    · rw [hbytes]
      simp [stream]
  have hlt := h.opened
  rw [hstreams, List.length_append, List.length_singleton] at hlt
  rw [hindex, hstreams, write_concat]
  generalize hl' : ({ l with
    streams := before ++ [bytes ++ frame raw]
    calls := l.calls ++ [(some before.length, raw)] } : RadioLink) = l'
  have hcalls : sent l'.calls = sent l.calls ++ [(before.length, raw)] := by rw [← hl', hsent]
  have hmanager : l'.manager = l.manager := by rw [← hl']
  have hstreams' : l'.streams = before ++ [bytes ++ frame raw] := by rw [← hl']
  have hsentOn (k : Nat) : sentOn l' k =
      sentOn l k ++ if before.length = k then [raw] else [] := by
    rw [sentOn, hcalls, Interleaving.part_append, Interleaving.part_cons, sentOn]
    rfl
  have hlast : Last l' (Greeted pb l.manager.config.serial) := by
    refine ⟨before, _, hstreams', ?_⟩
    rw [hsentOn, if_pos rfl]
    exact hmore
  refine ⟨hmanager ▸ h.loops, ?_, ?_, ?_, ?_, ?_⟩
  · intro k bytes' hk
    rw [hstreams'] at hk
    rw [hmanager, hsentOn]
    rcases concat_get hk with hk | ⟨rfl, rfl⟩
    · obtain ⟨hne, -⟩ := List.getElem?_eq_some_iff.mp hk
      rw [if_neg (Nat.ne_of_gt hne), List.append_nil]
      exact h.carries k bytes' (hstreams ▸ prefix_get hk)
    · rw [if_pos rfl]
      exact .inr hmore
  · intro c hc
    rw [hcalls] at hc
    rw [hstreams', List.length_append, List.length_singleton]
    rcases List.mem_append.mp hc with hc | hc
    · exact hlt c hc
    · rw [List.mem_singleton.mp hc]
      exact Nat.lt_succ_self _
  · rw [hcalls, List.map_append, List.pairwise_append]
    refine ⟨h.ordered, List.pairwise_singleton _ _, ?_⟩
    intro j hj k hk
    obtain ⟨c, hc, rfl⟩ := List.mem_map.mp hj
    rw [List.mem_singleton.mp hk]
    exact Nat.le_of_lt_succ (hlt c hc)
  · intro await hc
    rw [hmanager] at hc
    rw [(h.loops.connecting hc).1] at hup
    cases hup
  · intro _
    rw [hmanager]
    exact hlast

theorem Linked.sendRaw (h : Linked pb l) (raw : Bytes) : Linked pb (sendRawToRadio l raw) := by
  unfold sendRawToRadio
  split
  · exact h.dropped raw
  · next hup =>
    rw [Bool.not_eq_true, Bool.or_eq_false_iff, Bool.not_eq_false'] at hup
    by_cases hfits : raw.length ≤ maxPacketSize
    · rw [encodeFrame_ok hfits]
      exact h.written hup.1 hfits
    · have he : encodeFrame raw = .error (tooLarge raw.length) := by simp [encodeFrame, hfits]
      rw [he]
      exact h.dropped raw

theorem Linked.step (hw : pb.WantConfigSize) (h : Linked pb l) {e : LinkEvent}
    (hs : linkStep pb l e = some l') : Linked pb l' := by
  cases e with
  | task e nonce =>
    obtain ⟨m', hm, hs⟩ := Option.bind_eq_some_iff.mp hs
    cases hs
    exact h.task hw hm
  | sendRaw raw =>
    cases hs
    exact h.sendRaw raw

/-! ## Runs -/

theorem not_connects_connect (config : PhysicalNodeConfig) (failed : Option ConnectAwait)
    (await : ConnectAwait) : ¬ Connects (connect config failed) await := by
  intro ⟨delay, hm⟩
  cases failed with
  | none =>
    rw [show (connect config none).tasks = [{ await := .start .readLoop }] from rfl] at hm
    cases List.mem_singleton.mp hm
  | some failed =>
    unfold connect at hm
    simp only at hm
    split at hm
    · rw [show (startReconnectLoop _).tasks = [{ await := .start .reconnectLoop }] from rfl] at hm
      cases List.mem_singleton.mp hm
    · cases hm

/-- The connection that `connect` has opened, if it has come to that. -/
theorem connectStreams_cases (hw : pb.WantConfigSize) (serial : Bool) (nonce : UInt32)
    (failed : Option ConnectAwait) :
    connectStreams pb serial nonce failed = [] ∧ failed ≠ none ∨
      ∃ bytes, connectStreams pb serial nonce failed = [bytes] ∧
        (Woken serial bytes [] ∧ failed ≠ none ∨ Greeted pb serial bytes []) := by
  obtain ⟨bytes, hopen, hbytes⟩ := handshake_open hw serial [] nonce
  rw [List.nil_append] at hopen
  have hopened (hne : failed ≠ none) :
      Woken serial bytes [] ∧ failed ≠ none ∨ Greeted pb serial bytes [] := by
    split at hbytes
    · exact .inl ⟨hbytes, hne⟩
    · exact .inr hbytes
  have hthrough : ∃ bytes, (if serial then handshake pb serial
      (handshake pb serial [] nonce .openConnection) nonce .settle
      else handshake pb serial [] nonce .openConnection) = [bytes] ∧
        (Woken serial bytes [] ∧ failed ≠ none ∨ Greeted pb serial bytes []) := by
    split at hbytes
    · next hs =>
      obtain ⟨bytes', hsettle, hgreeted⟩ := @handshake_settle _ _ hw _ [] _ _ hbytes nonce
      rw [if_pos hs, hopen]
      exact ⟨bytes', hsettle, .inr hgreeted⟩
    · next hs =>
      rw [if_neg hs]
      exact ⟨bytes, hopen, .inr hbytes⟩
  match failed with
  | none => exact .inr hthrough
  | some .openConnection => exact .inl ⟨rfl, nofun⟩
  | some .wake => exact .inr ⟨bytes, hopen, hopened nofun⟩
  | some .settle => exact .inr ⟨bytes, hopen, hopened nofun⟩
  | some .wantConfig => exact .inr hthrough

theorem connect_up {config : PhysicalNodeConfig} {failed : Option ConnectAwait}
    (h : (connect config failed).connected = true) : failed = none := by
  cases failed with
  | none => rfl
  | some await =>
    unfold connect at h
    simp only at h
    split at h <;> cases h

theorem Linked.start (hw : pb.WantConfigSize) (config : PhysicalNodeConfig)
    (failed : Option ConnectAwait) (nonce : UInt32) :
    Linked pb (PhysicalNode.start pb config failed nonce) := by
  have hconfig : (PhysicalNode.start pb config failed nonce).manager.config = config := by
    show (connect config failed).config = config
    unfold connect
    cases failed with
    | none => rfl
    | some await =>
      simp only
      split <;> rfl
  refine ⟨connect_loops config failed, ?_, nofun, .nil, ?_, ?_⟩
  · intro k bytes hk
    rw [hconfig]
    change (connectStreams pb config.serial nonce failed)[k]? = some bytes at hk
    rcases connectStreams_cases hw config.serial nonce failed with ⟨hs, -⟩ | ⟨bytes', hs, hb⟩
    · rw [hs] at hk
      cases hk
    · rw [hs] at hk
      rcases @concat_get _ [] _ _ _ hk with hk | ⟨-, rfl⟩
      · cases hk
      · rcases hb with ⟨hwoken, -⟩ | hgreeted
        · exact .inl hwoken
        · exact .inr hgreeted
  · intro await hc
    exact absurd hc (not_connects_connect config failed await)
  · intro hup
    have hnone := connect_up hup
    rw [hconfig]
    rcases connectStreams_cases hw config.serial nonce failed with ⟨-, hne⟩ | ⟨bytes, hs, hb⟩
    · exact absurd hnone hne
    · rcases hb with ⟨-, hne⟩ | hgreeted
      · exact absurd hnone hne
      · exact ⟨[], bytes, hs, hgreeted⟩

theorem run_linked (hw : pb.WantConfigSize) (config : PhysicalNodeConfig)
    (failed : Option ConnectAwait) (nonce : UInt32) {es : List LinkEvent}
    (hr : run (linkStep pb) (start pb config failed nonce) es = some l) : Linked pb l :=
  invariant (fun _ _ _ h hs => h.step hw hs) (.start hw config failed nonce) hr

/-! ## What the node reads -/

theorem decode_greeting (serial : Bool) (x : Bytes) : decode (greeting serial ++ x) = decode x := by
  cases serial with
  | true => exact decode_replicate (by decide) 32 x
  | false => rfl

/-- Of the greeting and the frames behind it, what has arrived carries the first payloads. -/
theorem decode_greeting_prefix {serial : Bool} {ps : List Bytes} {x : Bytes}
    (hps : ∀ p ∈ ps, p.length ≤ maxPacketSize) (hx : x <+: greeting serial ++ stream ps) :
    decode x <+: ps := by
  rcases List.prefix_or_prefix_of_prefix hx (List.prefix_append (greeting serial) _) with h | h
  · have hnone : decode x = [] := by
      cases serial with
      | true =>
        obtain ⟨-, hreplicate⟩ := List.prefix_replicate_iff.mp h
        rw [hreplicate, ← List.append_nil (List.replicate _ _), decode_replicate (by decide)]
        exact decode_short (by decide)
      | false =>
        rw [List.prefix_nil.mp h]
        exact decode_short (by decide)
    rw [hnone]
    exact List.nil_prefix
  · obtain ⟨y, rfl⟩ := h
    rw [decode_greeting]
    exact decode_prefix hps ((List.prefix_append_right_inj _).mp hx)

/-- What the node is to read on a connection: its messages behind a request for the config,
which only a connection that never came up may lack. -/
def Opens (pb : Protobuf E) (opening msgs : List Bytes) : Prop :=
  opening = [] ∧ msgs = [] ∨ ∃ nonce, opening = [wantConfig pb nonce]

theorem carries_decode (hw : pb.WantConfigSize) {serial : Bool} {bytes : Bytes}
    {msgs : List Bytes} (h : Woken serial bytes msgs ∨ Greeted pb serial bytes msgs) :
    ∃ opening, Opens pb opening msgs ∧ decode bytes = opening ++ msgs ∧
      ∀ x, x <+: bytes → decode x <+: opening ++ msgs := by
  have hdecode {ps : List Bytes} (hps : ∀ p ∈ ps, p.length ≤ maxPacketSize)
      (hb : bytes = greeting serial ++ stream ps) :
      decode bytes = ps ∧ ∀ x, x <+: bytes → decode x <+: ps := by
    rw [hb, decode_greeting, decode_stream hps]
    exact ⟨rfl, fun x hx => decode_greeting_prefix hps hx⟩
  rcases h with ⟨rfl, rfl, rfl⟩ | ⟨hmsgs, nonce, hb⟩
  · exact ⟨[], .inl ⟨rfl, rfl⟩, hdecode (List.forall_mem_nil _) (List.append_nil _).symm⟩
  · refine ⟨[wantConfig pb nonce], .inr ⟨nonce, rfl⟩, hdecode ?_ hb⟩
    exact List.forall_mem_cons.mpr ⟨wantConfig_fits hw nonce, hmsgs⟩

/-- A message is sent while the connection is up, and fits in a frame. -/
def FindsLink (l : RadioLink) : LinkEvent → Prop
  | .task _ _ => True
  | .sendRaw raw =>
    (l.manager.connected = true ∧ l.manager.stream = true) ∧ raw.length ≤ maxPacketSize

instance (l : RadioLink) : ∀ e, Decidable (FindsLink l e)
  | .task _ _ => isTrue trivial
  | .sendRaw _ => inferInstanceAs (Decidable (_ ∧ _))

/-- Every message went out. -/
def NoneDropped (l : RadioLink) : Prop := ∀ c ∈ l.calls, c.1 ≠ none

theorem noneDropped_concat {streams : List Bytes} (c : Option Nat × Bytes) :
    NoneDropped { l with streams, calls := l.calls ++ [c] } ↔ NoneDropped l ∧ c.1 ≠ none := by
  simp [NoneDropped, or_imp, forall_and]

theorem noneDropped_step {e : LinkEvent} (hs : linkStep pb l e = some l') :
    NoneDropped l' ↔ NoneDropped l ∧ FindsLink l e := by
  cases e with
  | task e nonce =>
    obtain ⟨m', -, hs⟩ := Option.bind_eq_some_iff.mp hs
    cases hs
    exact (and_iff_left trivial).symm
  | sendRaw raw =>
    cases hs
    unfold sendRawToRadio
    split
    · next hdown =>
      rw [@noneDropped_concat l l.streams]
      refine and_congr_right fun _ => iff_of_false (fun h => h rfl) ?_
      intro ⟨⟨hc, hw⟩, _⟩
      simp [hc, hw] at hdown
    · next hup =>
      simp only [Bool.or_eq_true, Bool.not_eq_true', not_or, Bool.not_eq_false] at hup
      by_cases hfits : raw.length ≤ maxPacketSize
      · rw [encodeFrame_ok hfits]
        simp only
        rw [noneDropped_concat]
        exact and_congr_right fun _ => iff_of_true (fun h => nomatch h) ⟨hup, hfits⟩
      · have he : encodeFrame raw = .error (tooLarge raw.length) := by simp [encodeFrame, hfits]
        rw [he]
        simp only
        rw [@noneDropped_concat l l.streams]
        exact and_congr_right fun _ => iff_of_false (fun h => h rfl) fun h => hfits h.2

theorem noneDropped_iff : ∀ {es : List LinkEvent} {l : RadioLink}, run (linkStep pb) l es = some l' →
    (NoneDropped l' ↔ NoneDropped l ∧ Along (linkStep pb) FindsLink l es)
  | [], l, hr => by
    cases hr
    exact (and_iff_left trivial).symm
  | e :: es, l, hr => by
    obtain ⟨u, hu, hr⟩ := run_cons.mp hr
    have halong : Along (linkStep pb) FindsLink l (e :: es) ↔
        FindsLink l e ∧ Along (linkStep pb) FindsLink u es :=
      and_congr_right fun _ =>
        ⟨fun h => h u hu, fun h t ht => Option.some.inj (hu.symm.trans ht) ▸ h⟩
    rw [noneDropped_iff hr, noneDropped_step hu, halong, and_assoc]

/-- **What the node reads on its connections.** Each carries a request for the config, its
own alone, and then the messages sent while it was up; however much of it has arrived,
the node reads the first of these. The messages of all connections are in the order of the
calls, and those calls are all there are in the runs in which each finds the link up. -/
theorem run_streams (hw : pb.WantConfigSize) (config : PhysicalNodeConfig)
    (failed : Option ConnectAwait) (nonce : UInt32) (es : List LinkEvent)
    (hr : run (linkStep pb) (start pb config failed nonce) es = some l) :
    (∀ k bytes, l.streams[k]? = some bytes → ∃ opening, Opens pb opening (sentOn l k) ∧
      decode bytes = opening ++ sentOn l k ∧
      ∀ x, x <+: bytes → decode x <+: opening ++ sentOn l k) ∧
    (List.range l.streams.length).flatMap (sentOn l) = (sent l.calls).map Prod.snd ∧
    (NoneDropped l ↔
      Along (linkStep pb) FindsLink (start pb config failed nonce) es) := by
  have hl := run_linked hw config failed nonce hr
  refine ⟨?_, Interleaving.flatMap_part hl.ordered hl.opened, ?_⟩
  · intro k bytes hk
    exact carries_decode hw (hl.carries k bytes hk)
  · have hnone : NoneDropped (start pb config failed nonce) := List.forall_mem_nil _
    rw [noneDropped_iff hr]
    exact and_iff_right hnone

/-- A message on each of two connections, and one between them. -/
def reopened : List LinkEvent :=
  [.task (.resume 0 .started) 0, .sendRaw [0x94, 0xC3], .task (.resume 0 (.chunk [])) 0,
    .task (.resume 1 .started) 0, .sendRaw [0x01], .task (.resume 1 .returned) 0,
    .task (.resume 1 .returned) 0, .task (.resume 1 .returned) 0, .task (.resume 1 .returned) 0x07,
    .task (.resume 1 .returned) 0, .sendRaw [0x02]]

theorem run_streams_reopened :
    ∃ l, run (linkStep wire) (start wire {} none 0x05) reopened = some l ∧
      l.streams.length = 2 ∧ sentOn l 0 = [[0x94, 0xC3]] ∧ sentOn l 1 = [[0x02]] ∧
      (List.range l.streams.length).flatMap (sentOn l) = [[0x94, 0xC3], [0x02]] ∧
      ¬ NoneDropped l := by
  have hrun : (run (linkStep wire) (start wire {} none 0x05) reopened).map
      (fun l => (l.streams.length, l.calls)) =
        some (2, [(some 0, [0x94, 0xC3]), (none, [0x01]), (some 1, [0x02])]) := by decide
  obtain ⟨l, hl, hend⟩ := Option.map_eq_some_iff.mp hrun
  obtain ⟨hlen, hcalls⟩ := Prod.mk.inj hend
  obtain ⟨-, horder, hdropped⟩ := run_streams wire_wantConfigSize {} none 0x05 reopened hl
  refine ⟨l, hl, hlen, by rw [sentOn, hcalls]; decide, by rw [sentOn, hcalls]; decide, ?_, ?_⟩
  · rw [horder, hcalls]
    rfl
  · rw [hdropped]
    decide

end Multiplextashtic.PhysicalNode

import Multiplextashtic.Broadcast
import Multiplextashtic.Quiescence

/-! # What is accepted for the physical node

Whatever the message queue accepts was sent by a client that was let: past the
gate for ADMIN_APP packets with the address it connected from, and not one of the
commands the router keeps. -/
namespace Multiplextashtic.Client
open Multiplextashtic.Protocol Multiplextashtic.Messages Multiplextashtic.Router
open Multiplextashtic.ConfigReplay

variable {E : Type} {pb : Protobuf E} {w : World} {h h' : ClientHandler E} {f : Option (Forward E)}
  {payload : Bytes} {packet : MeshPacket E}

/-! ## One connection -/

@[simp] theorem readTurn_peerIp (h : ClientHandler E) (turn : Turn) :
    (readTurn h turn).peerIp = h.peerIp := by
  cases turn <;> rfl

@[simp] theorem refreshTurn_peerIp (h : ClientHandler E) (i : Nat) (turn : Turn) :
    (refreshTurn h i turn).peerIp = h.peerIp := by
  cases turn <;> rfl

theorem respond_peerIp (h : ClientHandler E) (packet : MeshPacket E) (routed : Routed) :
    (respond h packet routed).1.peerIp = h.peerIp := by
  unfold respond
  split
  · split
    · split <;> rfl
    · rfl
  · rfl

theorem handleToRadio_peerIp (h : ClientHandler E) (payload : Bytes) (now : Time) :
    (handleToRadio h pb w payload now).1.peerIp = h.peerIp := by
  unfold handleToRadio
  split
  · rfl
  · split
    · split
      · rfl
      · exact readTurn_peerIp _ _
    · split
      · unfold sendQueueStatus
        simp only
        split <;> rfl
      · split
        · rfl
        · split
          · rfl
          · split
            · exact respond_peerIp _ _ _
            · rfl

/-- A connection keeps its address. -/
theorem clientStep_peerIp {e : ClientEvent} (hs : clientStep pb w h e = some (h', f)) :
    h'.peerIp = h.peerIp := by
  cases clientStep_stepped hs with
  | @payload payload now _ _ hread hlen hp =>
    have hsame : (handleToRadio h pb w payload now).1.peerIp = h.peerIp :=
      handleToRadio_peerIp h payload now
    rwa [hp] at hsame
  | resumeRead hr =>
    unfold resumeRead at hr
    split at hr
    · cases hr
      exact readTurn_peerIp _ _
    · cases hr
      rfl
    · split at hr <;> cases hr <;> rfl
    · cases hr
  | hangUp hg =>
    unfold hangUp at hg
    split at hg <;> cases hg
    rfl
  | writeNext hw =>
    unfold writeNext at hw
    split at hw
    · split at hw <;> cases hw <;> rfl
    · cases hw
  | resumeWrite hw =>
    unfold resumeWrite at hw
    split at hw <;> cases hw
    rfl
  | refresh => exact refreshTurn_peerIp _ _ _
  | resumeRefresh hr =>
    unfold resumeRefresh at hr
    split at hr <;> cases hr
    exact refreshTurn_peerIp _ _ _
  | tearDown ht =>
    unfold tearDown at ht
    split at ht <;> cases ht
    rfl

/-- The packet is in a payload that the router lets through from the address. -/
def Forward.Let (pb : Protobuf E) (config : Config.AppConfig) (peerIp : String) (f : Forward E) :
    Prop :=
  ∃ payload myNodeNum, pb.parseToRadio payload = some (.packet f.packet) ∧
    Passes pb config myNodeNum f.packet peerIp ∧ f.raw = stripPki pb f.packet payload

/-- What the router keeps back of the packets that reach the physical node. -/
structure Guarded (pb : Protobuf E) (config : Config.AppConfig) (peerIp : String)
    (packet : MeshPacket E) : Prop where
  pki : ¬ (packet.fromNode = 0 ∧ packet.pkiEncrypted = true)
  gate : packet.portnum = adminApp → SelfAddressed packet ∨ peerIp ∈ localhostIps ∨
    ∃ entry ∈ config.security.allowAdminFromIps, EntryMatches peerIp entry
  contact : packet.portnum = adminApp → pb.parseAdminMessage packet.payload ≠ some .addContact

/-- The packet the bytes carry is the one that was checked, but for its PKI fields. -/
theorem Forward.Let.guarded (hrt : pb.ToRadioRoundTrip) (he : pb.EmptyAdminMessage)
    {config : Config.AppConfig} {peerIp : String} {g : Forward E} (hg : g.Let pb config peerIp)
    (hp : pb.parseToRadio g.raw = some (.packet packet)) : Guarded pb config peerIp packet := by
  obtain ⟨payload, myNodeNum, hparse, hpasses, hraw⟩ := hg
  have hcontact (hport : g.packet.portnum = adminApp) :
      pb.parseAdminMessage g.packet.payload ≠ some .addContact := by
    intro ha
    have hne : g.packet.payload ≠ [] := by
      intro hnil
      rw [hnil, he] at ha
      cases ha
    exact (hpasses hport).2 hne blocked (by simp [interceptAdmin, ha])
  rw [hraw] at hp
  unfold stripPki at hp
  split at hp
  · next hpki =>
    rw [hrt] at hp
    cases hp
    refine ⟨fun h => Bool.false_ne_true h.2, ?_, hcontact⟩
    intro hport
    rcases (adminGate_iff _ _ _).mp (hpasses hport).1 with hself | hlisted
    · exact absurd hpki.1 hself.1
    · exact .inr hlisted
  · next hpki =>
    rw [hparse] at hp
    cases hp
    exact ⟨hpki, fun hport => (adminGate_iff _ _ _).mp (hpasses hport).1, hcontact⟩

theorem respond_forwards {routed : Routed} {g : Forward E}
    (hr : (respond h packet routed).2 = some g) : forwardOf packet routed = some g := by
  unfold respond at hr
  split at hr
  · split at hr
    · split at hr <;> cases hr
    · exact hr
  · exact hr

theorem routed_let (hp : pb.parseToRadio payload = some (.packet packet)) {g : Forward E}
    (hf : forwardOf packet (routeFromClient pb w.env.config w.myNodeNum payload h.peerIp) = some g) :
    g.Let pb w.env.config h.peerIp := by
  rcases routeFromClient_cases pb w.env.config w.myNodeNum payload h.peerIp with
    ⟨packet', hp', hpasses, hroute⟩ | ⟨hblocked, -⟩
  · obtain rfl : packet = packet' := by
      rw [hp] at hp'
      cases hp'
      rfl
    rw [hroute] at hf
    simp only [forwardOf, forward] at hf
    split at hf
    · cases hf
      exact ⟨payload, _, hp, hpasses, rfl⟩
    · cases hf
  · rw [forwardOf_kept hblocked] at hf
    cases hf

/-- **What a step of a connection forwards, its address lets through.** -/
theorem clientStep_let (hn : NonePending h) {e : ClientEvent} {g : Forward E}
    (hs : clientStep pb w h e = some (h', some g)) : g.Let pb w.env.config h.peerIp := by
  cases e with
  | payload payload now =>
    cases clientStep_stepped hs with
    | payload hread hlen hp =>
      rcases @handleToRadio_cases E pb h w payload now hread with
        ⟨toRadio, -, -, -, hreq⟩ | ⟨packet, hhand, hres⟩ | ⟨-, hnone, -⟩
      · rw [hreq] at hp
        cases hp
      · rw [hres] at hp
        obtain ⟨-, hparse, -⟩ := handedToRouter_eq_some.mp hhand
        exact routed_let hparse (respond_forwards (congrArg Prod.snd hp))
      · rw [hp] at hnone
        cases hnone
  | resumeRead | writeNext | resumeWrite | resumeRefresh => cases turn_forwards hn rfl hs
  | hangUp | refresh | tearDown => cases clientStep_stepped hs

/-- **What a step of a connection forwards, comes behind a whole replay.** -/
theorem clientStep_introduced (hn : NonePending h) (ht : Tracked pb h) {e : ClientEvent}
    {g : Forward E} (hs : clientStep pb w h e = some (h', some g)) : Completed pb h.written := by
  cases e with
  | payload payload now =>
    cases clientStep_stepped hs with
    | payload hread hlen hp =>
      rcases @handleToRadio_cases E pb h w payload now hread with
        ⟨toRadio, -, -, -, hreq⟩ | ⟨packet, hhand, -⟩ | ⟨-, hnone, -⟩
      · rw [hreq] at hp
        cases hp
      · obtain ⟨-, -, hsent⟩ := handedToRouter_eq_some.mp hhand
        exact ht.completed hsent
      · rw [hp] at hnone
        cases hnone
  | resumeRead | writeNext | resumeWrite | resumeRefresh => cases turn_forwards hn rfl hs
  | hangUp | refresh | tearDown => cases clientStep_stepped hs

/-- What is written stays written. -/
theorem clientStep_written {e : ClientEvent} (hs : clientStep pb w h e = some (h', f)) :
    ∃ more, h'.written = h.written ++ more := by
  cases clientStep_replays hs with
  | beside hb =>
    obtain ⟨more, hmore, -⟩ := hb.written
    exact ⟨more, hmore⟩
  | @request payload now toRadio hread =>
    exact ⟨_, (readTurn_turnOf (request h toRadio.nonce now) _).written⟩
  | resumed hread => exact ⟨_, (readTurn_turnOf h _).written⟩
  | refresh =>
    have hlen : h.refreshes.length < (beginRefresh h w).refreshes.length := by
      simp [beginRefresh]
    exact ⟨_, (refreshTurn_turnOf (beginRefresh h w) hlen _).written⟩
  | refreshed hr =>
    obtain ⟨hi, -⟩ := List.getElem?_eq_some_iff.mp hr
    exact ⟨_, (refreshTurn_turnOf h hi _).written⟩

end Multiplextashtic.Client

namespace Multiplextashtic.Server
open Multiplextashtic.Protocol Multiplextashtic.Messages Multiplextashtic.Config
open Multiplextashtic.Router Multiplextashtic.Client Run

variable {E : Type} {pb : Protobuf E} {s s' : TCPServer E}

/-! ## The server -/

/-- The addresses of the connections, by their numbers. -/
def peers (s : TCPServer E) : List String := s.handlers.map (·.peerIp)

def Event.peer : Event → Option String
  | .connect peerIp => some peerIp
  | _ => none

theorem peers_broadcast (s : TCPServer E) (data : Bytes) :
    peers (broadcastFromRadio s data) = peers s := map_broadcast (fun _ _ => rfl) s data

theorem peers_setHandler {cid : Nat} {h h' : ClientHandler E} (hh : s.handlers[cid]? = some h)
    (hp : h'.peerIp = h.peerIp) : peers (setHandler s cid h') = peers s := by
  obtain ⟨hlt, hget⟩ := List.getElem?_eq_some_iff.mp hh
  refine List.ext_getElem? ?_
  intro j
  show ((s.handlers.set cid h').map (·.peerIp))[j]? = (s.handlers.map (·.peerIp))[j]?
  rw [List.getElem?_map, List.getElem?_map, List.getElem?_set]
  by_cases hj : cid = j
  · subst hj
    simp [hlt, hget, hp]
  · simp [hj]

theorem peers_step {e : Event} (hs : step pb s e = some s') :
    peers s' = peers s ++ e.peer.toList := by
  cases step_stepped hs with
  | connect peerIp => simp [peers, connect, Event.peer]
  | @client cid ce h h' f hh hc =>
    have hset := peers_setHandler hh (clientStep_peerIp hc)
    cases f with
    | none => exact hset.trans (List.append_nil _).symm
    | some f => exact (peers_broadcast _ _).trans (hset.trans (List.append_nil _).symm)
  | broadcast hq => exact (peers_broadcast _ _).trans (List.append_nil _).symm
  | _ => exact (List.append_nil _).symm

theorem config_step {e : Event} (hs : step pb s e = some s') : s'.config = s.config := by
  cases step_stepped hs with
  | @client cid ce h h' f hh hc => cases f <;> rfl
  | _ => rfl

theorem accepted_forwardPacket {cid : Nat} {f : Forward E} {x : Nat × Forward E}
    (hx : x ∈ (forwardPacket pb s cid (some f)).accepted) : x ∈ s.accepted ∨ x = (cid, f) := by
  change x ∈ (if (s.messages.enqueueRaw f.raw).1 then s.accepted ++ [(cid, f)]
    else s.accepted) at hx
  split at hx
  · exact (List.mem_append.mp hx).imp id List.mem_singleton.mp
  · exact .inl hx

/-- What was accepted, the address of the connection it came from lets through. -/
def AllLet (pb : Protobuf E) (s : TCPServer E) : Prop :=
  ∀ x ∈ s.accepted, ∃ peerIp, (peers s)[x.1]? = some peerIp ∧ x.2.Let pb s.config peerIp

theorem peers_kept {cid : Nat} {peerIp : String} (hp : peers s <+: peers s')
    (h : (peers s)[cid]? = some peerIp) : (peers s')[cid]? = some peerIp := by
  obtain ⟨hlt, -⟩ := List.getElem?_eq_some_iff.mp h
  rw [← h]
  exact (List.prefix_iff_getElem?.mp hp cid hlt).trans (List.getElem?_eq_getElem hlt).symm

theorem AllLet.grow (h : AllLet pb s) (ha : s'.accepted = s.accepted) (hc : s'.config = s.config)
    (hp : peers s <+: peers s') : AllLet pb s' := by
  intro x hx
  rw [ha] at hx
  obtain ⟨peerIp, hip, hlet⟩ := h x hx
  exact ⟨peerIp, peers_kept hp hip, hc ▸ hlet⟩

theorem AllLet.step (hn : ∀ h ∈ s.handlers, NonePending h) (h : AllLet pb s) {e : Event}
    (hs : Server.step pb s e = some s') : AllLet pb s' := by
  have hpeers : peers s <+: peers s' := ⟨_, (peers_step hs).symm⟩
  have hconfig := config_step hs
  cases step_stepped hs with
  | @client cid ce h0 h1 f hh hc =>
    cases f with
    | none => exact h.grow rfl hconfig hpeers
    | some f =>
      have hpeer : (peers s)[cid]? = some h0.peerIp := by simp [peers, hh]
      have hlet : f.Let pb s.config h0.peerIp := clientStep_let (hn h0 (List.mem_of_getElem? hh)) hc
      intro x hx
      rcases accepted_forwardPacket hx with hx | rfl
      · obtain ⟨peerIp, hip, hlet⟩ := h x hx
        exact ⟨peerIp, peers_kept hpeers hip, hlet⟩
      · exact ⟨h0.peerIp, peers_kept hpeers hpeer, hlet⟩
  | _ => exact h.grow rfl hconfig hpeers

/-- **The message queue accepts only what the client's address lets through.** -/
theorem run_allLet {config : AppConfig} {es : List Event}
    (hr : run (Server.step pb) (init config) es = some s) : AllLet pb s ∧ s.config = config := by
  have hinit : AllLet pb (init config : TCPServer E) := fun x hx => nomatch hx
  have hall := invariant (P := fun s : TCPServer E => (AllLet pb s ∧ s.config = config) ∧
    ∀ h ∈ s.handlers, NonePending h) ?_ ⟨⟨hinit, rfl⟩, List.forall_mem_nil _⟩ hr
  · exact hall.1
  · intro s e s' ⟨⟨h, hc⟩, hn⟩ hs
    exact ⟨⟨h.step hn hs, (config_step hs).trans hc⟩, step_nonePending hn hs⟩

/-! ## Whom a packet is accepted from -/

/-- What was written on the connections, by their numbers. -/
def writes (s : TCPServer E) : List (List (Source × Bytes)) := s.handlers.map (·.written)

theorem writes_step {e : Event} (hs : step pb s e = some s') {cid : Nat}
    {written : List (Source × Bytes)} (hw : (writes s)[cid]? = some written) :
    ∃ more, (writes s')[cid]? = some (written ++ more) := by
  have hkept (data : Bytes) (t : TCPServer E) : writes (broadcastFromRadio t data) = writes t :=
    map_broadcast (fun _ _ => rfl) t data
  have hsame : ∃ more, (writes s)[cid]? = some (written ++ more) :=
    ⟨[], by rw [List.append_nil, hw]⟩
  cases step_stepped hs with
  | connect peerIp =>
    refine ⟨[], ?_⟩
    obtain ⟨hlt, -⟩ := List.getElem?_eq_some_iff.mp hw
    show ((s.handlers ++ [({ peerIp } : ClientHandler E)]).map (·.written))[cid]? = _
    rw [List.map_append, List.append_nil]
    exact (List.getElem?_append_left hlt).trans hw
  | @client cid' ce h0 h1 f hh hc =>
    have hset : ∃ more, (writes (setHandler s cid' h1))[cid]? = some (written ++ more) := by
      show ∃ more, ((s.handlers.set cid' h1).map (·.written))[cid]? = some (written ++ more)
      rw [List.map_set]
      by_cases hcid : cid' = cid
      · subst hcid
        obtain ⟨hlt, -⟩ := List.getElem?_eq_some_iff.mp hw
        obtain ⟨more, hmore⟩ := clientStep_written hc
        refine ⟨more, ?_⟩
        rw [writes, List.getElem?_map, hh] at hw
        cases hw
        exact (List.getElem?_set_self hlt).trans (congrArg some hmore)
      · rw [List.getElem?_set_ne hcid]
        exact hsame
    cases f with
    | none => exact hset
    | some f =>
      show ∃ more, (writes (broadcastFromRadio _ _))[cid]? = _
      rw [hkept]
      exact hset
  | broadcast hq =>
    rw [hkept]
    exact hsame
  | _ => exact hsame

/-- The connections that packets were accepted from were written a whole configuration. -/
def AllIntroduced (pb : Protobuf E) (s : TCPServer E) : Prop :=
  ∀ x ∈ s.accepted, ∃ written, (writes s)[x.1]? = some written ∧ Completed pb written

theorem AllIntroduced.grow (h : AllIntroduced pb s) {e : Event} (hs : Server.step pb s e = some s')
    {x : Nat × Forward E} (hx : x ∈ s.accepted) :
    ∃ written, (writes s')[x.1]? = some written ∧ Completed pb written := by
  obtain ⟨written, hw, hc⟩ := h x hx
  obtain ⟨more, hmore⟩ := writes_step hs hw
  exact ⟨_, hmore, hc.append more⟩

theorem AllIntroduced.step (hn : ∀ h ∈ s.handlers, NonePending h)
    (ht : ∀ h ∈ s.handlers, Tracked pb h) (h : AllIntroduced pb s) {e : Event}
    (hs : Server.step pb s e = some s') : AllIntroduced pb s' := by
  intro x hx
  by_cases hbefore : x ∈ s.accepted
  · exact h.grow hs hbefore
  · cases step_stepped hs with
    | @client cid ce h0 h1 f hh hc =>
      cases f with
      | none => exact absurd hx hbefore
      | some f =>
        have hm := List.mem_of_getElem? hh
        rcases accepted_forwardPacket hx with hx | rfl
        · exact absurd hx hbefore
        · have hwritten : (writes s)[cid]? = some h0.written := by simp [writes, hh]
          obtain ⟨more, hmore⟩ := writes_step hs hwritten
          exact ⟨_, hmore, (clientStep_introduced (hn h0 hm) (ht h0 hm) hc).append more⟩
    | _ => exact absurd hx hbefore

/-- **The message queue accepts nothing from a client before it has a whole configuration.** -/
theorem run_allIntroduced {config : AppConfig} {es : List Event}
    (hr : run (Server.step pb) (init config) es = some s) : AllIntroduced pb s := by
  have hinit : AllIntroduced pb (init config : TCPServer E) := fun x hx => nomatch hx
  have hall := invariant (P := fun s : TCPServer E => AllIntroduced pb s ∧
    (∀ h ∈ s.handlers, NonePending h) ∧ ∀ h ∈ s.handlers, Tracked pb h) ?_
    ⟨hinit, List.forall_mem_nil _, List.forall_mem_nil _⟩ hr
  · exact hall.1
  · intro s e s' ⟨h, hn, ht⟩ hs
    refine ⟨h.step hn ht hs, step_nonePending hn hs, ?_⟩
    refine step_forall hs ht (.new pb) ?_ ?_
    · intro h h' ce f hc ht
      exact ht.step (e := .step (world s) ce) (by rw [connStep, hc]; rfl)
    · intro data _ h ht
      exact ht.step (e := .put data) rfl

end Multiplextashtic.Server

import Multiplextashtic.Downlink
import Multiplextashtic.Reconnects

/-! # What a reconnect learns

The events that `wait_for_my_info` and `wait_for_metadata` wait for are cleared at each
connection. A reconnect whose wait is answered therefore goes on with what the node has
told since that connection, never with what was left of the one before. -/
namespace Multiplextashtic.Server
open Multiplextashtic.Protocol Multiplextashtic.Messages Multiplextashtic.Config
open Multiplextashtic.Client Run

variable {E : Type} {pb : Protobuf E} {s s' : TCPServer E}

/-! ## What the node has told -/

def infoIn (pb : Protobuf E) (payload : Bytes) : Option MyNodeInfo :=
  (pb.parseFromRadio payload).bind fun fr =>
    match fr.variant with
    | .myInfo info => some info
    | _ => none

def metadataIn (pb : Protobuf E) (payload : Bytes) : Option DeviceMetadata :=
  (pb.parseFromRadio payload).bind fun fr =>
    match fr.variant with
    | .metadata metadata => some metadata
    | _ => none

/-- The manager knows what the node has told last. -/
structure Learned (pb : Protobuf E) (s : TCPServer E) : Prop where
  myInfo : s.phys.myInfo = (s.radioed.filterMap (infoIn pb)).getLast?
  metadata : s.phys.metadata = (s.radioed.filterMap (metadataIn pb)).getLast?

theorem getLast?_filterMap_concat {A B : Type} (f : A → Option B) (l : List A) (a : A) :
    ((l ++ [a]).filterMap f).getLast? = (f a).or (l.filterMap f).getLast? := by
  rw [List.filterMap_append, List.getLast?_append]
  cases hf : f a <;> simp [hf]

/-- What the manager makes of a payload. -/
theorem maybeCaptureMyInfo_eq (phys : PhysicalNode) (payload : Bytes) :
    (maybeCaptureMyInfo pb phys payload).myInfo = (infoIn pb payload).or phys.myInfo ∧
      (maybeCaptureMyInfo pb phys payload).metadata =
        (metadataIn pb payload).or phys.metadata := by
  unfold maybeCaptureMyInfo infoIn metadataIn
  cases pb.parseFromRadio payload with
  | none => exact ⟨rfl, rfl⟩
  | some fr =>
    obtain ⟨id, variant⟩ := fr
    cases variant <;> exact ⟨rfl, rfl⟩

theorem learned_radio (h : Learned pb s) (payload : Bytes) :
    Learned pb (radioPayload pb s payload) := by
  obtain ⟨hinfo, hmetadata⟩ := @maybeCaptureMyInfo_eq E pb s.phys payload
  refine ⟨?_, ?_⟩
  · rw [radioPayload, getLast?_filterMap_concat, ← h.myInfo]
    exact hinfo
  · rw [radioPayload, getLast?_filterMap_concat, ← h.metadata]
    exact hmetadata

theorem Learned.step (h : Learned pb s) {e : Event} (hs : Server.step pb s e = some s') :
    Learned pb s' := by
  cases step_stepped hs with
  | @client cid ce h0 h1 f hh hc =>
    cases f with
    | none => exact ⟨h.myInfo, h.metadata⟩
    | some f => exact ⟨h.myInfo, h.metadata⟩
  | radio hlen => exact learned_radio h _
  | _ => exact ⟨h.myInfo, h.metadata⟩

end Multiplextashtic.Server

namespace Multiplextashtic.Main
open Multiplextashtic.Protocol Multiplextashtic.Messages Multiplextashtic.Config
open Multiplextashtic.PhysicalNode (RadioLink PhysicalNodeConfig ConnectAwait)
open Multiplextashtic.Server (TCPServer Learned infoIn metadataIn)
open Multiplextashtic.Cache (updateMyInfo)
open Multiplextashtic.Client Extractor Run

variable {E : Type} {pb : Protobuf E} {p p' : Program E} {i : Nat} {es : List Event}

/-! ## What is told since a connection -/

/-- Among the payloads is one that sets the event. -/
def Told (pb : Protobuf E) (c : Captured) (payloads : List Bytes) : Prop :=
  ∃ payload ∈ payloads, capturedBy pb payload = some c

/-- The payload has in it what the event stands for. -/
def tells (pb : Protobuf E) : Captured → Bytes → Bool
  | .myInfo => fun payload => (infoIn pb payload).isSome
  | .metadata => fun payload => (metadataIn pb payload).isSome

/-- What sets the event is told. -/
theorem Told.tells {c : Captured} {payloads : List Bytes} (h : Told pb c payloads) :
    ∃ payload ∈ payloads, Main.tells pb c payload = true := by
  obtain ⟨payload, hm, hc⟩ := h
  refine ⟨payload, hm, ?_⟩
  unfold capturedBy at hc
  cases hp : pb.parseFromRadio payload with
  | none =>
    rw [hp] at hc
    cases hc
  | some fr =>
    obtain ⟨id, variant⟩ := fr
    rw [hp] at hc
    cases variant <;> cases hc <;> simp [Main.tells, infoIn, metadataIn, hp]

theorem Told.mono {c : Captured} {l l' : List Bytes} (h : Told pb c l) (hl : l ⊆ l') :
    Told pb c l' := by
  obtain ⟨payload, hm, hc⟩ := h
  exact ⟨payload, hl hm, hc⟩

/-- How much had been read at the last connection. -/
def lastSince (p : Program E) : Nat := p.since.getLast?.getD 0

/-- An event that is set was set since the last connection, and a reconnect is woken by what
was told since its own. -/
structure Fresh (pb : Protobuf E) (p : Program E) : Prop where
  counted : p.since.length = p.reconnects.length
  read : ∀ n ∈ p.since, n ≤ p.server.radioed.length
  last : ∀ n ∈ p.since, n ≤ lastSince p
  captured : ∀ c, p.captured c = true → Told pb c (p.server.radioed.drop (lastSince p))
  woken : ∀ (j n : Nat) (c : Captured), p.since[j]? = some n → p.reconnects[j]? = some (Await.wait c true) →
    Told pb c (p.server.radioed.drop n)

/-- A step that makes no connection and sets no event. -/
theorem Fresh.keep (h : Fresh pb p) (hradioed : p.server.radioed = p'.server.radioed)
    (hcaptured : p'.captured = p.captured) (hsince : p'.since = p.since)
    (hlen : p'.reconnects.length = p.reconnects.length)
    (hw : ∀ (j : Nat) (c : Captured), p'.reconnects[j]? = some (Await.wait c true) →
      p.reconnects[j]? = some (Await.wait c true) ∨ p.captured c = true) : Fresh pb p' := by
  have hlast : lastSince p' = lastSince p := by rw [lastSince, lastSince, hsince]
  refine ⟨?_, ?_, ?_, ?_, ?_⟩
  · rw [hsince, hlen, h.counted]
  · rw [hsince, ← hradioed]
    exact h.read
  · rw [hsince, hlast]
    exact h.last
  · rw [hcaptured, hlast, ← hradioed]
    exact h.captured
  · intro j n c hn hwait
    rw [hsince] at hn
    rw [← hradioed]
    rcases hw j c hwait with hwait | hc
    · exact h.woken j n c hn hwait
    · exact (h.captured c hc).mono
        (List.drop_subset_drop_left _ (h.last n (List.mem_of_getElem? hn)))

theorem wake_wait {await : Await} {c d : Captured} (h : await.wake c = .wait d true) :
    await = .wait d true ∨ d = c := by
  cases await with
  | wait e woken =>
    simp only [Await.wake] at h
    injection h with he hw
    subst he
    rcases Bool.or_eq_true_iff.mp hw with rfl | hc
    · exact .inl rfl
    · exact .inr (of_decide_eq_true hc)
  | _ => cases h

/-- A payload. -/
theorem Fresh.radioPayload (h : Fresh pb p) (payload : Bytes) :
    Fresh pb (radioPayload pb p payload) := by
  have hgrown (n : Nat) : p.server.radioed.drop n ⊆ (p.server.radioed ++ [payload]).drop n := by
    rw [List.drop_append]
    exact List.subset_append_left _ _
  have hnew {c : Captured} (hc : capturedBy pb payload = some c) {n : Nat}
      (hn : n ≤ p.server.radioed.length) : Told pb c ((p.server.radioed ++ [payload]).drop n) := by
    refine ⟨payload, ?_, hc⟩
    rw [List.drop_append_of_le_length hn]
    exact List.mem_append_right _ (List.mem_singleton.mpr rfl)
  have hlast : lastSince p ≤ p.server.radioed.length := by
    unfold lastSince
    cases hg : p.since.getLast? with
    | none => exact Nat.zero_le _
    | some n => exact h.read n (List.mem_of_getLast? hg)
  have hread : ∀ n ∈ p.since, n ≤ (p.server.radioed ++ [payload]).length := by
    intro n hn
    rw [List.length_append]
    exact Nat.le_add_right_of_le (h.read n hn)
  unfold Main.radioPayload
  cases hc : capturedBy pb payload with
  | none =>
    refine ⟨h.counted, hread, h.last, ?_, ?_⟩
    · exact fun c hcaptured => (h.captured c hcaptured).mono (hgrown _)
    · exact fun j n c hn hwait => (h.woken j n c hn hwait).mono (hgrown _)
  | some d =>
    refine ⟨h.counted.trans (List.length_map _).symm, hread, h.last, ?_, ?_⟩
    · intro c hset
      by_cases hcd : c = d
      · exact hnew (hcd ▸ hc) hlast
      · have hbefore : p.captured c = true := (Function.update_of_ne hcd ..).symm.trans hset
        exact (h.captured c hbefore).mono (hgrown _)
    · intro j n c hn hwait
      change (p.reconnects.map (Await.wake d))[j]? = _ at hwait
      rw [List.getElem?_map] at hwait
      obtain ⟨await, hawait, hwake⟩ := Option.map_eq_some_iff.mp hwait
      rcases wake_wait hwake with rfl | rfl
      · exact (h.woken j n c hn hawait).mono (hgrown _)
      · exact hnew hc (h.read n (List.mem_of_getElem? hn))

/-- A connection. -/
theorem Fresh.connected (h : Fresh pb p) : Fresh pb (connected p) := by
  have hlast : lastSince (Main.connected p) = p.server.radioed.length := by
    simp [lastSince, Main.connected]
  have hle : ∀ n ∈ p.since ++ [p.server.radioed.length], n ≤ p.server.radioed.length := by
    intro n hn
    rcases List.mem_append.mp hn with hn | hn
    · exact h.read n hn
    · exact Nat.le_of_eq (List.mem_singleton.mp hn)
  refine ⟨?_, hle, ?_, fun c hc => Bool.noConfusion hc, ?_⟩
  · show (p.since ++ [_]).length = (p.reconnects ++ [_]).length
    rw [List.length_append, List.length_append, h.counted]
    rfl
  · rw [hlast]
    exact hle
  · intro j n c hn hwait
    change (p.since ++ [_])[j]? = _ at hn
    change (p.reconnects ++ [_])[j]? = _ at hwait
    rw [List.getElem?_append, h.counted] at hn
    rw [List.getElem?_append] at hwait
    split at hwait
    · next hj =>
      rw [if_pos hj] at hn
      exact h.woken j n c hn hwait
    · rw [List.getElem?_singleton] at hwait
      split at hwait <;> cases hwait

/-- A reconnect comes to a wait. -/
theorem waits_set {await : Await} {captured : Captured → Bool}
    (ha : ∀ c, await = .wait c true → captured c = true) (j : Nat) (c : Captured)
    (h : (p.reconnects.set i await)[j]? = some (Await.wait c true)) :
    p.reconnects[j]? = some (Await.wait c true) ∨ captured c = true := by
  rw [List.getElem?_set] at h
  split at h
  · split at h
    · exact .inr (ha c (Option.some.inj h))
    · cases h
  · exact .inl h

theorem waits_waitFor (p : Program E) (d : Captured) (c : Captured)
    (h : waitFor p d = .wait c true) : p.captured c = true := by
  injection h with hd hw
  exact hd ▸ hw

theorem waits_loop (cids : List Nat) (p : Program E) (j : Nat) (c : Captured)
    (h : (refreshAllClients pb i cids p).reconnects[j]? = some (Await.wait c true)) :
    p.reconnects[j]? = some (Await.wait c true) ∨ p.captured c = true := by
  obtain ⟨calls, await, -, hset, hafter⟩ := @refreshAllClients_calls E pb i cids p
  rw [hset] at h
  refine waits_set ?_ j c h
  intro d hd
  obtain ⟨rest, hleft, -⟩ := hafter.left
  rw [hd] at hleft
  cases hleft

/-- The loop over the clients changes only the server and the reconnect it belongs to. -/
theorem loop_kept (cids : List Nat) : ∀ p : Program E,
    (refreshAllClients pb i cids p).captured = p.captured ∧
      (refreshAllClients pb i cids p).since = p.since ∧
      (refreshAllClients pb i cids p).reconnects.length = p.reconnects.length := by
  induction cids with
  | nil => exact fun p => ⟨rfl, rfl, List.length_set⟩
  | cons cid rest ih =>
    intro p
    unfold refreshAllClients
    simp only
    split
    · exact ⟨rfl, rfl, List.length_set⟩
    · exact ih { p with server := _, refreshed := _ }

theorem Fresh.loop (h : Fresh pb p) (cids : List Nat) :
    Fresh pb (refreshAllClients pb i cids p) := by
  obtain ⟨hcaptured, hsince, hlen⟩ := @loop_kept E pb i cids p
  exact h.keep (sameReads_refreshAllClients cids p).radioed.symm hcaptured hsince hlen
    (waits_loop cids p)

theorem Fresh.step (h : Fresh pb p) {e : Event} (hs : Main.step pb p e = some p') :
    Fresh pb p' := by
  have hsame (j : Nat) (c : Captured) (hw : p.reconnects[j]? = some (Await.wait c true)) :
      p.reconnects[j]? = some (Await.wait c true) ∨ p.captured c = true := .inl hw
  cases step_stepped hs with
  | chunk hl =>
    refine radioChunk_keeps ?_ ?_ fun q payload hq => hq.radioPayload payload
    · exact h.keep rfl rfl rfl rfl hsame
    · exact h.keep rfl rfl rfl rfl hsame
  | @connected e nonce link hl hr =>
    exact (@Fresh.keep E pb p { p with link } h rfl rfl rfl rfl hsame).connected
  | @server e server ha hserver =>
    refine h.keep (radioed_step ?_ hserver).symm rfl rfl rfl hsame
    rintro payload rfl
    cases ha
  | starts hi => exact h.keep rfl rfl rfl List.length_set (waits_set (waits_waitFor p _))
  | @identifies i woken ok outcome hi hw =>
    exact h.keep (radioed_cacheMyInfo p ok).symm rfl rfl List.length_set
      (waits_set (waits_waitFor p _))
  | captures hi hw =>
    exact (@Fresh.keep E pb p (captureDefaults pb p) h rfl rfl rfl rfl hsame).loop _
  | drained hi hserver hwaits => exact h.keep (radioed_client hserver).symm rfl rfl rfl hsame
  | @refreshed i cid n rest lost server hi hserver hover =>
    have hradioed := radioed_client hserver
    exact (@Fresh.keep E pb p { p with server } h hradioed.symm rfl rfl rfl hsame).loop _
  | mainIdentifies hm hw => exact h.keep (radioed_cacheMyInfo p _).symm rfl rfl rfl hsame
  | link | mainCaptures | stops | disconnects => exact h.keep rfl rfl rfl rfl hsame

/-! ## What clients are served from -/

theorem capture_client {s s' : TCPServer E} {cid : Nat} {ce : ClientEvent}
    (hs : Server.step pb s (.client cid ce) = some s') : s'.capture = s.capture := by
  cases Server.step_stepped hs with
  | @client _ _ h h' f hh hc => cases f <;> rfl

theorem handlers_client {s s' : TCPServer E} {cid : Nat} {ce : ClientEvent}
    (hs : Server.step pb s (.client cid ce) = some s') : s.handlers ≠ [] := by
  cases Server.step_stepped hs with
  | client hh hc => exact List.ne_nil_of_mem (List.mem_of_getElem? hh)

theorem capture_refreshAllClients (cids : List Nat) : ∀ p : Program E,
    (refreshAllClients pb i cids p).server.capture = p.server.capture := by
  have hrefresh (s : TCPServer E) (cid : Nat) : (refreshConfig pb s cid).capture = s.capture := by
    unfold refreshConfig
    cases hs : Server.step pb s (.client cid .refresh) with
    | none => rfl
    | some s' => exact capture_client hs
  induction cids with
  | nil => exact fun _ => rfl
  | cons cid rest ih =>
    intro p
    unfold refreshAllClients
    simp only
    split
    · exact hrefresh _ _
    · exact (ih _).trans (hrefresh _ _)

/-- `main` has captured the configuration. -/
def Await.serves : Await → Bool
  | .done => true
  | .mdnsStop => true
  | .serverClosed => true
  | _ => false

/-- The configuration that is captured in a state. -/
def captureOf (pb : Protobuf E) (p : Program E) : Capture.ConfigCapture :=
  Capture.captureDefaults pb p.server.phys.myNodeNum 80
    (p.server.phys.metadata.map (·.firmwareVersion))

/-- With the step the wait for the metadata is over, in `main` or in a reconnect. -/
inductive Recaptures (p : Program E) : Event → Prop
  | main {woken ok : Bool} {outcome : Outcome} : p.main = .wait .metadata woken →
      waited woken outcome = some ok → Recaptures p (.main outcome)
  | reconnect {i : Nat} {woken ok : Bool} {outcome : Outcome} :
      p.reconnects[i]? = some (.wait .metadata woken) → waited woken outcome = some ok →
      Recaptures p (.reconnect i outcome)

/-- `main` serves, or has served, as a client is connected. -/
def Serves (p : Program E) : Prop := p.main.serves = true ∨ p.server.handlers ≠ []

/-- Where `main` serves, the capture is one that was made along the run. -/
def Configured (pb : Protobuf E) (first : Program E) (es : List Event) (p : Program E) : Prop :=
  Serves p → ∃ before e after u, es = before ++ e :: after ∧
    run (step pb) first before = some u ∧ Recaptures u e ∧ p.server.capture = captureOf pb u

theorem Configured.keep {first : Program E} {e : Event} (h : Configured pb first es p)
    (hs : Serves p' → Serves p) (hc : p'.server.capture = p.server.capture) :
    Configured pb first (es ++ [e]) p' := by
  intro hserves
  obtain ⟨before, made, after, u, rfl, hu, hmade, hcapture⟩ := h (hs hserves)
  exact ⟨before, made, after ++ [e], u, List.append_assoc _ _ _, hu, hmade, hc.trans hcapture⟩

/-- A step with no new client, behind which `main` serves only if it did before. -/
theorem Serves.before (hm : p'.main.serves = true → p.main.serves = true)
    (hh : p'.server.handlers = p.server.handlers) (h : Serves p') : Serves p :=
  h.imp hm fun hne => hh ▸ hne

theorem handlers_cacheMyInfo (p : Program E) (ok : Bool) :
    (cacheMyInfo p ok).server.handlers = p.server.handlers ∧
      (cacheMyInfo p ok).server.capture = p.server.capture := by
  unfold cacheMyInfo Server.cacheMyInfo
  cases ok with
  | false => exact ⟨rfl, rfl⟩
  | true => cases p.server.phys.myInfo <;> exact ⟨rfl, rfl⟩

theorem serves_wake (c : Captured) (await : Await) : (await.wake c).serves = await.serves := by
  cases await <;> rfl

/-- A payload changes neither the clients nor the capture. -/
theorem radioPayload_serves (p : Program E) (payload : Bytes) :
    (radioPayload pb p payload).main.serves = p.main.serves ∧
      (radioPayload pb p payload).server.handlers = p.server.handlers ∧
      (radioPayload pb p payload).server.capture = p.server.capture := by
  unfold radioPayload
  cases capturedBy pb payload with
  | none => exact ⟨rfl, rfl, rfl⟩
  | some c => exact ⟨serves_wake c p.main, rfl, rfl⟩

/-- The server's own steps leave the capture alone, and let a client in only if `main` serves. -/
theorem allowed_serves {e : Server.Event} (ha : allowed p e = true) {server : TCPServer E}
    (hs : Server.step pb p.server e = some server) :
    (p.main.serves = true ∨ server.handlers ≠ [] → Serves p) ∧
      server.capture = p.server.capture := by
  cases Server.step_stepped hs with
  | connect peerIp =>
    refine ⟨fun _ => .inl ?_, rfl⟩
    rcases Bool.or_eq_true_iff.mp ha with hm | hm
    · rw [of_decide_eq_true hm]
      rfl
    · rw [of_decide_eq_true hm]
      rfl
  | @client cid ce h h' f hh hc =>
    refine ⟨fun _ => .inr (List.ne_nil_of_mem (List.mem_of_getElem? hh)), ?_⟩
    cases f <;> rfl
  | @broadcast payload rest hq =>
    refine ⟨fun h => h.imp id fun hne hnil => hne ?_, rfl⟩
    have hlen := Server.broadcast_length (Server.taken pb p.server payload rest) payload
    exact List.length_eq_zero_iff.mp (hlen.trans (List.length_eq_zero_iff.mpr hnil))
  | recapture => cases ha
  | _ => exact ⟨id, rfl⟩

theorem Configured.step {first : Program E} (hr : run (Main.step pb) first es = some p)
    (h : Configured pb first es p) {e : Event} (hs : Main.step pb p e = some p') :
    Configured pb first (es ++ [e]) p' := by
  cases step_stepped hs with
  | @chunk i chunk nonce link hl =>
    obtain ⟨hm, hh, hc⟩ : (radioChunk pb { p with link } i chunk).main.serves = p.main.serves ∧
        (radioChunk pb { p with link } i chunk).server.handlers = p.server.handlers ∧
        (radioChunk pb { p with link } i chunk).server.capture = p.server.capture := by
      refine radioChunk_keeps (P := fun q => q.main.serves = p.main.serves ∧
        q.server.handlers = p.server.handlers ∧ q.server.capture = p.server.capture)
        ⟨rfl, rfl, rfl⟩ ⟨rfl, rfl, rfl⟩ ?_
      intro q payload ⟨hm, hh, hc⟩
      obtain ⟨hm', hh', hc'⟩ := @radioPayload_serves E pb q payload
      exact ⟨hm'.trans hm, hh'.trans hh, hc'.trans hc⟩
    exact h.keep (Serves.before (fun hserves => hm ▸ hserves) hh) hc
  | server ha hserver =>
    obtain ⟨hserves, hcapture⟩ := allowed_serves ha hserver
    exact h.keep hserves hcapture
  | @identifies i woken ok outcome hi hw =>
    exact h.keep (Serves.before id (handlers_cacheMyInfo p ok).1) (handlers_cacheMyInfo p ok).2
  | captures hi hw =>
    exact fun _ =>
      ⟨es, _, [], p, rfl, hr, .reconnect hi hw, capture_refreshAllClients _ _⟩
  | @drained i cid n rest lost server hi hserver hwaits =>
    exact h.keep (fun _ => .inr (handlers_client hserver)) (capture_client hserver)
  | @refreshed i cid n rest lost server hi hserver hover =>
    refine h.keep (fun _ => .inr (handlers_client hserver)) ?_
    exact (capture_refreshAllClients _ _).trans (capture_client hserver)
  | @mainIdentifies woken ok outcome hm hw =>
    exact h.keep (Serves.before nofun (handlers_cacheMyInfo p ok).1) (handlers_cacheMyInfo p ok).2
  | mainCaptures hm hw => exact fun _ => ⟨es, _, [], p, rfl, hr, .main hm hw, rfl⟩
  | stops hm =>
    refine h.keep (fun _ => .inl ?_) rfl
    rcases hm with ⟨hm, -⟩ | ⟨hm, -⟩ <;> rw [hm] <;> rfl
  | disconnects hm hl => exact h.keep (Serves.before nofun rfl) rfl
  | connected | link | starts => exact h.keep (Serves.before id rfl) rfl

/-! ## Runs -/

section
variable {config : AppConfig} {phys : PhysicalNodeConfig} {failed : Option ConnectAwait}
  {nonce : UInt32} {es : List Event}

theorem fresh_start (config : AppConfig) (phys : PhysicalNodeConfig)
    (failed : Option ConnectAwait) (nonce : UInt32) :
    Fresh pb (start pb config phys failed nonce) := by
  have hnone : Fresh pb ({ server := Server.init config
                           link := PhysicalNode.start pb phys failed nonce } : Program E) :=
    ⟨rfl, List.forall_mem_nil _, List.forall_mem_nil _, fun _ hc => Bool.noConfusion hc, nofun⟩
  unfold start
  simp only
  split
  · exact hnone.connected
  · exact hnone

theorem run_fresh_state (hr : run (step pb) (start pb config phys failed nonce) es = some p) :
    Fresh pb p :=
  invariant (P := Fresh pb) (fun _ _ _ h hs => h.step hs) (fresh_start config phys failed nonce) hr

theorem run_learned (hr : run (step pb) (start pb config phys failed nonce) es = some p) :
    Learned pb p.server := by
  obtain ⟨-, hserver⟩ := run_server hr
  exact invariant (P := Learned pb) (fun _ _ _ h hs => h.step hs) ⟨rfl, rfl⟩ hserver

/-- The last that is told, where it is told since a connection. -/
theorem getLast?_drop {A B : Type} {f : A → Option B} {l : List A} {n : Nat}
    (h : ∃ a ∈ l.drop n, (f a).isSome) :
    ∃ b, (l.filterMap f).getLast? = some b ∧ ((l.drop n).filterMap f).getLast? = some b := by
  obtain ⟨a, hm, ha⟩ := h
  obtain ⟨b, hb⟩ := Option.isSome_iff_exists.mp ha
  have hmem : b ∈ (l.drop n).filterMap f := List.mem_filterMap.mpr ⟨a, hm, hb⟩
  have hne : (l.drop n).filterMap f ≠ [] := List.ne_nil_of_mem hmem
  have hlast : ((l.drop n).filterMap f).getLast? = some (((l.drop n).filterMap f).getLast hne) :=
    List.getLast?_eq_some_getLast hne
  refine ⟨_, ?_, hlast⟩
  have hsplit : l.filterMap f = (l.take n).filterMap f ++ (l.drop n).filterMap f := by
    rw [← List.filterMap_append, List.take_append_drop]
  rw [hsplit, List.getLast?_append, hlast]
  rfl

/-- **No client is served from an unfinished capture.** Once a client has connected, the
capture that replays are made from is a whole one. `main` or a reconnect made it at an
earlier moment of the run, behind its wait for the metadata, from what the node had told
by then. -/
theorem run_configured (hr : run (step pb) (start pb config phys failed nonce) es = some p)
    (hc : p.server.handlers ≠ []) : ∃ before e after u, es = before ++ e :: after ∧
      run (step pb) (start pb config phys failed nonce) before = some u ∧ Recaptures u e ∧
      p.server.capture = captureOf pb u ∧ p.server.capture.complete = true := by
  have hstart : Configured pb (start pb config phys failed nonce) []
      (start pb config phys failed nonce) := by
    rintro (hserves | hne)
    · exfalso
      unfold start at hserves
      simp only at hserves
      split at hserves <;> cases hserves
    · rw [start_server] at hne
      exact absurd rfl hne
  obtain ⟨before, e, after, u, hes, hu, hmade, hcapture⟩ :=
    invariant_history (P := Configured pb (start pb config phys failed nonce)) hstart
      (fun es t e u hr h hs => h.step hr hs) hr (.inr hc)
  refine ⟨before, e, after, u, hes, hu, hmade, hcapture, ?_⟩
  rw [hcapture, captureOf, Capture.captureDefaults, if_neg (by decide)]
  have hlimit : 80 ≤ Capture.syntheticLimit := by decide
  exact decide_eq_true hlimit

set_option maxRecDepth 10000 in
/-- The client that connects once `main` serves: the node has told no metadata in time. -/
theorem run_configured_comesUp :
    ∃ p e u, run (step wire) (start wire {} {} none 0x05)
        (comesUp ++ [.server (.connect "127.0.0.1")]) = some p ∧ Recaptures u e ∧
      p.server.capture = captureOf wire u ∧ p.server.capture.complete = true := by
  have hrun : (run (step wire) (start wire {} {} none 0x05)
      (comesUp ++ [.server (.connect "127.0.0.1")])).map (fun p => p.server.handlers.length) =
        some 1 := by decide
  obtain ⟨p, hp, hlen⟩ := Option.map_eq_some_iff.mp hrun
  have hne : p.server.handlers ≠ [] := by
    intro hnil
    rw [hnil] at hlen
    cases hlen
  obtain ⟨_, e, _, u, -, -, hmade, hcapture, hcomplete⟩ := run_configured hp hne
  exact ⟨p, e, u, hp, hmade, hcapture, hcomplete⟩

/-- **A reconnect that is answered goes on with what the node has told since its
connection.** Where its wait for the identity is answered, it caches the one that was told
last, and where its wait for the metadata is, it captures the configuration with the firmware
version that was told last; both were told after the connection was made. -/
theorem run_fresh (hr : run (step pb) (start pb config phys failed nonce) es = some p)
    {c : Captured} {woken : Bool} {outcome : Outcome}
    (hi : p.reconnects[i]? = some (.wait c woken)) (hok : waited woken outcome = some true)
    (hs : step pb p (.reconnect i outcome) = some p') :
    ∃ n, p.since[i]? = some n ∧
      (c = .myInfo → ∃ info,
        ((p.server.radioed.drop n).filterMap (infoIn pb)).getLast? = some info ∧
          p'.server.cache = updateMyInfo p.server.cache (Server.myInfoRecord info)) ∧
      (c = .metadata → ∃ metadata,
        ((p.server.radioed.drop n).filterMap (metadataIn pb)).getLast? = some metadata ∧
          p'.server.capture = Capture.captureDefaults pb p.server.phys.myNodeNum 80
            (some metadata.firmwareVersion)) := by
  have hfresh := run_fresh_state hr
  have hlearned := run_learned hr
  obtain rfl : woken = true := by
    cases outcome with
    | returned =>
      cases woken with
      | true => rfl
      | false => cases hok
    | _ => cases hok
  have hlt : i < p.since.length := by
    rw [hfresh.counted]
    exact (List.getElem?_eq_some_iff.mp hi).1
  refine ⟨p.since[i], List.getElem?_eq_getElem hlt, ?_, ?_⟩
  · intro hc
    subst hc
    have htold := hfresh.woken i _ .myInfo (List.getElem?_eq_getElem hlt) hi
    obtain ⟨info, hlast, hdrop⟩ := getLast?_drop htold.tells
    refine ⟨info, hdrop, ?_⟩
    cases step_stepped hs with
    | starts hi' => cases hi.symm.trans hi'
    | identifies hi' hw =>
      cases hi.symm.trans hi'
      cases hok.symm.trans hw
      rw [cacheMyInfo, if_pos rfl, Server.cacheMyInfo, hlearned.myInfo, hlast]
      rfl
    | captures hi' hw => cases hi.symm.trans hi'
    | drained hi' => cases hi.symm.trans hi'
    | refreshed hi' => cases hi.symm.trans hi'
  · intro hc
    subst hc
    have htold := hfresh.woken i _ .metadata (List.getElem?_eq_getElem hlt) hi
    obtain ⟨metadata, hlast, hdrop⟩ := getLast?_drop htold.tells
    refine ⟨metadata, hdrop, ?_⟩
    cases step_stepped hs with
    | starts hi' => cases hi.symm.trans hi'
    | identifies hi' hw => cases hi.symm.trans hi'
    | captures hi' hw =>
      rw [capture_refreshAllClients, captureDefaults, Server.recapture, hlearned.metadata, hlast]
      rfl
    | drained hi' => cases hi.symm.trans hi'
    | refreshed hi' => cases hi.symm.trans hi'

set_option maxRecDepth 10000 in
/-- The node has told who it is on both connections; the second time counts. -/
theorem run_fresh_relinked :
    ∃ p p' n info, run (step wire) (start wire {} {} none 0x05) relinked = some p ∧
      step wire p (.reconnect 1 .returned) = some p' ∧ p.since[1]? = some n ∧
      ((p.server.radioed.drop n).filterMap (infoIn wire)).getLast? = some info ∧
      p'.server.cache = updateMyInfo p.server.cache (Server.myInfoRecord info) := by
  have hrun : (run (step wire) (start wire {} {} none 0x05) relinked).map
      (fun p => p.reconnects[1]?) = some (some (.wait .myInfo true)) := by decide
  have hstep : ((run (step wire) (start wire {} {} none 0x05) relinked).bind
      (fun p => step wire p (.reconnect 1 .returned))).isSome := by decide
  obtain ⟨p, hp, hwait⟩ := Option.map_eq_some_iff.mp hrun
  obtain ⟨p', hstep⟩ := Option.isSome_iff_exists.mp hstep
  rw [hp, Option.bind_some] at hstep
  obtain ⟨n, hn, hinfo, -⟩ := run_fresh hp hwait rfl hstep
  obtain ⟨info, hlast, hcache⟩ := hinfo rfl
  exact ⟨p, p', n, info, hp, hstep, hn, hlast, hcache⟩

end

end Multiplextashtic.Main

import Multiplextashtic.Connection
import Multiplextashtic.Lib.Throttle

/-! # The rate limit of config requests

`_handle_to_radio` suppresses a `want_config_id` that repeats the one it answered
last and comes less than `CONFIG_COOLDOWN_SECONDS` behind it. That nonce and its
time are all a handler remembers, so a client that asks in turn for two nonces is
never held back. -/
namespace Multiplextashtic.Client
open Multiplextashtic.Protocol Multiplextashtic.Messages Multiplextashtic.ConfigReplay Run Throttle

variable {E : Type} {pb : Protobuf E} {w : World} {h h' : ClientHandler E}
  {ds : List (Decision UInt32 Time)} {nonce : UInt32} {now : Time}

/-! ## Requests -/

/-- The nonce a payload asks for, and when it comes. -/
def asked (pb : Protobuf E) : ConnEvent → Option (UInt32 × Time)
  | .step _ (.payload payload now) =>
    (pb.parseToRadio payload).bind fun toRadio =>
      if toRadio.nonce ≠ 0 then some (toRadio.nonce, now) else none
  | _ => none

/-- What the handler makes of a request. -/
def decided (pb : Protobuf E) (h : ClientHandler E) (e : ConnEvent) :
    Option (Decision UInt32 Time) :=
  (asked pb e).map fun r => ⟨r.1, r.2, !throttled h r.1 r.2⟩

/-- The decisions of a connection from its beginning. -/
def decisions (pb : Protobuf E) (peerIp : String) (es : List ConnEvent) :
    List (Decision UInt32 Time) := outputs (connStep pb) (decided pb) { peerIp } es

/-- `now` is within the cooldown that began at `earlier`. -/
def Soon (earlier now : Time) : Prop := now - earlier < configCooldown

instance soon_decidable : DecidableRel Soon := fun earlier now =>
  inferInstanceAs (Decidable (now - earlier < configCooldown))

theorem Soon.mono (s s' t : Time) (hs : s ≤ s') (h : Soon s t) : Soon s' t :=
  Int.lt_of_le_of_lt (Int.sub_le_sub_left hs t) h

/-- A request is suppressed, or a replay begins. -/
theorem connStep_asked {e : ConnEvent} (hs : connStep pb h e = some h')
    (ha : asked pb e = some (nonce, now)) : h.read = .reading ∧
      ((throttled h nonce now = true ∧ h' = h) ∨
        (throttled h nonce now = false ∧ ∃ turn, h' = readTurn (request h nonce now) turn)) := by
  match e, ha with
  | .step w (.payload payload now'), ha =>
    obtain ⟨toRadio, hparse, hr⟩ := Option.bind_eq_some_iff.mp ha
    by_cases hn : toRadio.nonce ≠ 0
    · rw [if_pos hn] at hr
      cases hr
      obtain ⟨⟨h'', f⟩, hc, rfl⟩ := Option.map_eq_some_iff.mp hs
      cases clientStep_stepped hc with
      | payload hread _ hp =>
        refine ⟨hread, ?_⟩
        unfold handleToRadio at hp
        rw [hparse] at hp
        simp only at hp
        rw [if_pos hn] at hp
        cases ht : throttled h toRadio.nonce now with
        | true =>
          rw [ht] at hp
          cases hp
          exact .inl ⟨rfl, rfl⟩
        | false =>
          rw [ht] at hp
          cases hp
          exact .inr ⟨rfl, _, rfl⟩
    · rw [if_neg hn] at hr
      cases hr

/-! ## What the handler remembers -/

/-- The handler knows the last start, and between replays it knows that there was one. -/
structure Remembers (h : ClientHandler E) (ds : List (Decision UInt32 Time)) : Prop where
  oneSlot : OneSlot Soon ds
  refreshes : h.refreshes = []
  fresh : started ds = [] → h.configSent = false ∧ ∀ r, h.read.standing ≠ .waiting r
  last : ∀ l, (started ds).getLast? = some l → h.lastConfigId = l.key ∧
    h.lastConfigSentAt = l.time ∧ (h.read.standing = .free → h.configSent = true)

theorem Remembers.throttled_iff (hr : Remembers h ds) (hread : h.read = .reading) :
    throttled h nonce now = true ↔
      ∃ l, (started ds).getLast? = some l ∧ l.key = nonce ∧ Soon l.time now := by
  cases hlast : (started ds).getLast? with
  | none =>
    have hsent := (hr.fresh (List.getLast?_eq_none_iff.mp hlast)).1
    simp [throttled, hsent]
  | some l =>
    obtain ⟨hid, hat, hfree⟩ := hr.last l hlast
    have hsent : h.configSent = true := hfree (by rw [hread]; rfl)
    simp only [throttled, hsent, hid, hat, Bool.true_and, Bool.and_eq_true, beq_iff_eq,
      decide_eq_true_eq, Option.some.injEq, exists_eq_left', Soon]
    exact and_congr_left' eq_comm

theorem Remembers.beside (hr : Remembers h ds) (hb : Beside h h') : Remembers h' ds := by
  refine ⟨hr.oneSlot, hb.refreshes.trans hr.refreshes, ?_, ?_⟩
  · intro hnone
    obtain ⟨hsent, hwait⟩ := hr.fresh hnone
    refine ⟨hb.configSent.trans hsent, ?_⟩
    intro r
    rcases hb.read with hread | hread
    · rw [hread]
      exact hwait r
    · rw [hread]
      exact nofun
  · intro l hl
    obtain ⟨hid, hat, hfree⟩ := hr.last l hl
    refine ⟨hb.lastConfigId.trans hid, hb.lastConfigSentAt.trans hat, ?_⟩
    intro hstands
    rcases hb.read with hread | hread
    · exact hb.configSent.trans (hfree (hread ▸ hstands))
    · rw [hread] at hstands
      cases hstands

/-- A turn of a replay that was asked for leaves what is remembered of its start. -/
theorem Remembers.turn (hone : OneSlot Soon ds) (hrefreshes : h.refreshes = [])
    {l : Decision UInt32 Time} (hlast : (started ds).getLast? = some l)
    (hid : h.lastConfigId = l.key) (hat : h.lastConfigSentAt = l.time) (turn : Turn) :
    Remembers (readTurn h turn) ds := by
  have hkept : (readTurn h turn).refreshes = h.refreshes ∧
      (readTurn h turn).lastConfigId = h.lastConfigId ∧
      (readTurn h turn).lastConfigSentAt = h.lastConfigSentAt := by
    cases turn <;> exact ⟨rfl, rfl, rfl⟩
  refine ⟨hone, hkept.1.trans hrefreshes, ?_, ?_⟩
  · intro hnone
    rw [hnone] at hlast
    cases hlast
  · intro l' hl'
    cases hlast.symm.trans hl'
    refine ⟨hkept.2.1.trans hid, hkept.2.2.trans hat, ?_⟩
    intro hfree
    cases turn with
    | returned => rfl
    | wrote | raised => cases hfree

theorem Remembers.suppress (hr : Remembers h ds) (hread : h.read = .reading)
    (ht : throttled h nonce now = true) : Remembers h (ds ++ [⟨nonce, now, false⟩]) := by
  have hstarted : started (ds ++ [⟨nonce, now, false⟩]) = started ds := by
    rw [started_concat]
    exact List.append_nil _
  refine ⟨each_concat.mpr ⟨hr.oneSlot, ?_⟩, hr.refreshes, ?_, ?_⟩
  · exact iff_of_true rfl ((hr.throttled_iff hread).mp ht)
  · intro hnone
    exact hr.fresh (hstarted ▸ hnone)
  · intro l hl
    exact hr.last l (hstarted ▸ hl)

theorem Remembers.start (hr : Remembers h ds) (hread : h.read = .reading)
    (ht : throttled h nonce now = false) (turn : Turn) :
    Remembers (readTurn (request h nonce now) turn) (ds ++ [⟨nonce, now, true⟩]) := by
  have hone : OneSlot Soon (ds ++ [⟨nonce, now, true⟩]) := by
    refine each_concat.mpr ⟨hr.oneSlot, iff_of_false nofun ?_⟩
    rw [← hr.throttled_iff hread, ht]
    exact nofun
  have hlast : (started (ds ++ [⟨nonce, now, true⟩])).getLast? = some ⟨nonce, now, true⟩ := by
    simp [started_concat]
  have hrefreshes : (request h nonce now).refreshes = [] := hr.refreshes
  exact .turn hone hrefreshes hlast rfl rfl turn

/-- A step that is no request leaves what is remembered. -/
theorem Remembers.other {e : ConnEvent} (hr : Remembers h ds) (he : ∀ w, e ≠ .step w .refresh)
    (ha : asked pb e = none) (hs : connStep pb h e = some h') : Remembers h' ds := by
  cases e with
  | put data =>
    cases hs
    exact hr.beside (.put h data)
  | step w e =>
    obtain ⟨⟨h'', f⟩, hc, rfl⟩ := Option.map_eq_some_iff.mp hs
    cases clientStep_replays hc with
    | beside hb => exact hr.beside hb
    | request _ hparse hn _ => simp [asked, hparse, hn] at ha
    | resumed hread =>
      -- a replay that was asked for has started
      cases hlast : (started ds).getLast? with
      | none =>
        have hwait := (hr.fresh (List.getLast?_eq_none_iff.mp hlast)).2
        exact absurd (by rw [hread]; rfl) (hwait _)
      | some l =>
        obtain ⟨hid, hat, -⟩ := hr.last l hlast
        exact .turn hr.oneSlot hr.refreshes hlast hid hat _
    | refresh => exact absurd rfl (he w)
    | refreshed hi =>
      rw [hr.refreshes] at hi
      cases hi

theorem connStep_remembers {e : ConnEvent} (hr : Remembers h ds)
    (he : ∀ w, e ≠ .step w .refresh) (hs : connStep pb h e = some h') :
    Remembers h' (ds ++ (decided pb h e).toList) := by
  rw [decided]
  cases ha : asked pb e with
  | none =>
    have hother := hr.other he ha hs
    simpa using hother
  | some r =>
    obtain ⟨nonce, now⟩ := r
    obtain ⟨hread, ⟨ht, rfl⟩ | ⟨ht, turn, rfl⟩⟩ := connStep_asked hs ha
    · simpa [ht] using hr.suppress hread ht
    · simpa [ht] using hr.start hread ht turn

/-! ## Runs -/

/-- The requests are those of the payloads. -/
theorem map_request_decisions {peerIp : String} {es : List ConnEvent}
    (hr : run (connStep pb) { peerIp } es = some h) :
    (decisions pb peerIp es).map Decision.request = es.filterMap (asked pb) := by
  rw [← outputs_eq_filterMap hr, ← List.filterMap_eq_map]
  refine (outputs_filterMap ?_ es _).symm
  intro h e
  rw [decided]
  cases asked pb e <;> rfl

/-- **The rate limit.** A request is suppressed only if a replay for its nonce began less
than the cooldown before it. Replays for one nonce are that far apart exactly when
a limiter that knew all of them would suppress no request behind one for another. -/
theorem run_rateLimit (peerIp : String) (es : List ConnEvent)
    (hr : run (connStep pb) { peerIp } es = some h) (hfresh : ∀ w, .step w .refresh ∉ es)
    (htimes : ((es.filterMap (asked pb)).map Prod.snd).Pairwise (· ≤ ·)) :
    OnlyTooSoon Soon (decisions pb peerIp es) ∧
      (Spaced Soon (decisions pb peerIp es) ↔ Steady Soon (es.filterMap (asked pb))) := by
  have hstart : Remembers (E := E) { peerIp } [] :=
    ⟨each_nil, rfl, fun _ => ⟨rfl, fun _ => nofun⟩, fun _ hl => nomatch hl⟩
  have hne : ∀ e ∈ es, ∀ w, e ≠ .step w .refresh := by
    intro e he w heq
    exact hfresh w (heq ▸ he)
  have hone := (invariant_outputs (fun _ _ _ _ => connStep_remembers) hstart hne hr).oneSlot
  rw [List.nil_append] at hone
  rw [← map_request_decisions hr, List.map_map] at htimes
  rw [← map_request_decisions hr]
  exact ⟨hone.onlyTooSoon, hone.spaced_iff Soon.mono htimes⟩

/-- A request with nothing cached, and the replay of so many writes that answers it. -/
def answered (nonce : UInt32) (now : Time) (writes : Nat) : List ConnEvent :=
  .step emptyWorld (.payload (wire.serializeToRadio (.wantConfigId nonce)) now) ::
    List.replicate writes (.step emptyWorld (.resumeRead false))

/-- The node list twice within a second, and again after the configuration. -/
def repeated : List ConnEvent :=
  answered 69421 0 2 ++ answered 69421 1000000 0 ++ answered 69420 6000000 4 ++
    answered 69421 12000000 2

theorem run_rateLimit_repeated :
    (decisions wire "192.168.1.50" repeated).map Decision.starts = [true, false, true, true] ∧
      OnlyTooSoon Soon (decisions wire "192.168.1.50" repeated) ∧
      Spaced Soon (decisions wire "192.168.1.50" repeated) := by
  have hrun : (run (connStep wire) { peerIp := "192.168.1.50" } repeated).isSome = true := by
    decide +kernel
  obtain ⟨h, hr⟩ := Option.isSome_iff_exists.mp hrun
  obtain ⟨honly, hspaced⟩ :=
    run_rateLimit "192.168.1.50" repeated hr (by simp [repeated, answered]) (by decide +kernel)
  exact ⟨by decide +kernel, honly, hspaced.mpr (by decide +kernel)⟩

/-- The configuration, the node list, and within two seconds the configuration again. -/
def alternating : List ConnEvent :=
  answered 69420 0 4 ++ answered 69421 1000000 2 ++ answered 69420 2000000 4

theorem run_rateLimit_alternating :
    (run (connStep wire) { peerIp := "192.168.1.50" } alternating).isSome = true ∧
      (∀ w, .step w .refresh ∉ alternating) ∧
      ((alternating.filterMap (asked wire)).map Prod.snd).Pairwise (· ≤ ·) ∧
      ¬ Spaced Soon (decisions wire "192.168.1.50" alternating) := by
  refine ⟨by decide +kernel, ?_, by decide +kernel, by decide +kernel⟩
  simp [alternating, answered]

end Multiplextashtic.Client

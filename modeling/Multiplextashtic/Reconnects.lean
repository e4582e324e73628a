import Mathlib.Data.List.Perm.Subperm
import Multiplextashtic.Components
import Multiplextashtic.Connection
import Multiplextashtic.Lib.Interleaving

/-! # Reconnects

Every connection to the physical node starts a call of `_on_physical_reconnect`. It
refreshes each client that is registered when it captures the configuration, one after
the other, and it caches an identity only if the node has told it since the connection. -/
namespace Multiplextashtic.Server
open Multiplextashtic.Protocol Multiplextashtic.Messages Multiplextashtic.Client
open Multiplextashtic.ConfigReplay Run

variable {E : Type} {pb : Protobuf E} {s s' : TCPServer E}

/-! ## The refreshes of a client -/

def tasksOf (s : TCPServer E) (cid : Nat) : List RefreshTask :=
  (s.handlers.map (·.refreshes))[cid]?.getD []

/-- A step of a `refresh_config`. -/
def Event.refreshes : Event → Bool
  | .client _ .refresh => true
  | .client _ (.resumeRefresh _ _) => true
  | _ => false

theorem tasksOf_forwardPacket (s : TCPServer E) (cid : Nat) (f : Option (Forward E)) (c : Nat) :
    tasksOf (forwardPacket pb s cid f) c = tasksOf s c := by
  cases f with
  | none => rfl
  | some f => exact congrArg (·[c]?.getD []) (map_broadcast (fun _ _ => rfl) s _)

theorem tasksOf_setHandler {cid : Nat} {h : ClientHandler E} (hh : s.handlers[cid]? = some h)
    (h' : ClientHandler E) (c : Nat) :
    tasksOf (setHandler s cid h') c = if c = cid then h'.refreshes else tasksOf s c := by
  obtain ⟨hlt, -⟩ := List.getElem?_eq_some_iff.mp hh
  unfold tasksOf setHandler
  rw [List.map_set, List.getElem?_set]
  by_cases hc : c = cid
  · subst hc
    simp [hlt]
  · rw [if_neg (Ne.symm hc), if_neg hc]

theorem refreshes_clientStep {w : World} {h h' : ClientHandler E} {f : Option (Forward E)}
    {e : ClientEvent} (hs : clientStep pb w h e = some (h', f)) (hr : e ≠ .refresh)
    (hw : ∀ i lost, e ≠ .resumeRefresh i lost) : h'.refreshes = h.refreshes := by
  cases clientStep_replays hs with
  | beside hb => exact hb.refreshes
  | request => exact readTurn_refreshes _ _
  | resumed => exact readTurn_refreshes _ _
  | refresh => exact absurd rfl hr
  | refreshed => exact absurd rfl (hw _ _)

/-- Other steps leave the refreshes alone. -/
theorem tasksOf_step {e : Event} (hs : step pb s e = some s') (he : e.refreshes = false)
    (c : Nat) : tasksOf s' c = tasksOf s c := by
  cases step_stepped hs with
  | connect peerIp =>
    unfold tasksOf connect
    rw [List.map_append, List.getElem?_append]
    split
    · rfl
    · next hc =>
      rw [List.getElem?_eq_none (Nat.le_of_not_lt hc)]
      cases c - (s.handlers.map (·.refreshes)).length <;> rfl
  | @client cid ce h h' f hh hc =>
    have hkept : h'.refreshes = h.refreshes := by
      refine refreshes_clientStep hc ?_ ?_
      · intro hce
        rw [hce] at he
        cases he
      · intro i lost hce
        rw [hce] at he
        cases he
    rw [tasksOf_forwardPacket, tasksOf_setHandler hh, hkept]
    split
    · next hcid =>
      subst hcid
      simp [tasksOf, hh]
    · rfl
  | broadcast hq => exact congrArg (·[c]?.getD []) (map_broadcast (fun _ _ => rfl) (taken pb s _ _) _)
  | _ => rfl

/-- A new refresh takes the next number. -/
theorem tasksOf_refresh {cid : Nat} (hs : step pb s (.client cid .refresh) = some s') :
    ∃ t, ∀ c, tasksOf s' c = if c = cid then tasksOf s c ++ [t] else tasksOf s c := by
  cases step_stepped hs with
  | @client _ _ h h' f hh hc =>
    cases hc
    refine ⟨turnTask (proceed pb (world s).env (Replay.new (world s).myNodeNum 0)), ?_⟩
    intro c
    rw [tasksOf_forwardPacket, tasksOf_setHandler hh]
    split
    · next hcid =>
      subst hcid
      simp [tasksOf, hh, refreshConfig, refreshTurn_refreshes]
    · rfl

/-- A refresh that waits goes on. -/
theorem tasksOf_resumeRefresh {cid n : Nat} {lost : Bool}
    (hs : step pb s (.client cid (.resumeRefresh n lost)) = some s') :
    ∃ t, ∀ c, tasksOf s' c = if c = cid then (tasksOf s c).set n t else tasksOf s c := by
  cases step_stepped hs with
  | @client _ _ h h' f hh hc =>
    obtain ⟨g, hg, he⟩ := Option.map_eq_some_iff.mp hc
    cases he
    unfold resumeRefresh at hg
    split at hg <;> cases hg
    next r hr =>
    refine ⟨turnTask (replayTurn pb (world s) r lost), ?_⟩
    intro c
    rw [tasksOf_forwardPacket, tasksOf_setHandler hh]
    split
    · next hcid =>
      subst hcid
      simp [tasksOf, hh, refreshTurn_refreshes]
    · rfl

end Multiplextashtic.Server

namespace Multiplextashtic.Main
open Multiplextashtic.Protocol Multiplextashtic.Messages Multiplextashtic.Config
open Multiplextashtic.PhysicalNode (RadioLink PhysicalNodeConfig ConnectAwait)
open Multiplextashtic.Server (TCPServer Registered tasksOf)
open Multiplextashtic.Client Interleaving Run

variable {E : Type} {pb : Protobuf E} {p p' : Program E} {s s' : TCPServer E} {i : Nat}

/-! ## Which refreshes wait -/

def waits : RefreshTask → Bool
  | .replaying _ => true
  | _ => false

theorem refreshCount_eq (s : TCPServer E) (cid : Nat) :
    refreshCount s cid = (tasksOf s cid).length := by
  unfold refreshCount tasksOf
  rw [List.getElem?_map]
  cases s.handlers[cid]? <;> rfl

theorem refreshing_eq (s : TCPServer E) (cid n : Nat) :
    refreshing s cid n = (tasksOf s cid)[n]?.any waits := by
  unfold refreshing tasksOf
  rw [List.getElem?_map]
  cases s.handlers[cid]? with
  | none => rfl
  | some h =>
    simp only [Option.bind_some, Option.map_some, Option.getD_some]
    cases h.refreshes[n]? with
    | none => rfl
    | some t => cases t <;> rfl

theorem refreshing_lt {cid n : Nat} (h : refreshing s cid n = true) : n < refreshCount s cid := by
  rw [refreshing_eq] at h
  rw [refreshCount_eq]
  by_contra hn
  rw [List.getElem?_eq_none (Nat.le_of_not_lt hn)] at h
  cases h

/-- The server has the same refreshes, in the same states. -/
def SameTasks (s s' : TCPServer E) : Prop := ∀ cid, tasksOf s' cid = tasksOf s cid

theorem SameTasks.refreshing (h : SameTasks s s') (cid n : Nat) :
    Main.refreshing s' cid n = Main.refreshing s cid n := by
  rw [refreshing_eq, refreshing_eq, h]

theorem SameTasks.count (h : SameTasks s s') (cid : Nat) :
    refreshCount s' cid = refreshCount s cid := by
  rw [refreshCount_eq, refreshCount_eq, h]

theorem refreshConfig_count {cid : Nat} (hcid : cid < s.handlers.length) (c : Nat) :
    refreshCount (refreshConfig pb s cid) c =
      if c = cid then refreshCount s c + 1 else refreshCount s c := by
  obtain ⟨t, ht⟩ := Server.tasksOf_refresh (@step_refresh E pb s cid hcid)
  rw [refreshCount_eq, ht, refreshCount_eq]
  split
  · rw [List.length_append]
    rfl
  · rfl

theorem refreshConfig_refreshing {cid : Nat} (hcid : cid < s.handlers.length) {c m : Nat}
    (hne : ¬ (c = cid ∧ m = refreshCount s cid)) :
    refreshing (refreshConfig pb s cid) c m = refreshing s c m := by
  obtain ⟨t, ht⟩ := Server.tasksOf_refresh (@step_refresh E pb s cid hcid)
  rw [refreshing_eq, ht, refreshing_eq]
  split
  · next hc =>
    subst hc
    rw [refreshCount_eq] at hne
    rcases Nat.lt_trichotomy m (tasksOf s c).length with hlt | heq | hgt
    · rw [List.getElem?_append_left hlt]
    · exact absurd ⟨rfl, heq⟩ hne
    · rw [List.getElem?_eq_none (Nat.le_of_lt hgt), List.getElem?_eq_none]
      rw [List.length_append]
      exact hgt
  · rfl

theorem resumeRefresh_count {cid n : Nat} {lost : Bool}
    (hs : Server.step pb s (.client cid (.resumeRefresh n lost)) = some s') (c : Nat) :
    refreshCount s' c = refreshCount s c := by
  obtain ⟨t, ht⟩ := Server.tasksOf_resumeRefresh hs
  rw [refreshCount_eq, ht, refreshCount_eq]
  split
  · exact List.length_set
  · rfl

theorem resumeRefresh_refreshing {cid n : Nat} {lost : Bool}
    (hs : Server.step pb s (.client cid (.resumeRefresh n lost)) = some s') {c m : Nat}
    (hne : ¬ (c = cid ∧ m = n)) : refreshing s' c m = refreshing s c m := by
  obtain ⟨t, ht⟩ := Server.tasksOf_resumeRefresh hs
  rw [refreshing_eq, ht, refreshing_eq]
  split
  · next hc =>
    subst hc
    rw [List.getElem?_set_ne]
    exact fun hn => hne ⟨rfl, hn.symm⟩
  · rfl

/-! ## One refresh at a time -/

/-- The numbers of the refreshes of a client that were called for. -/
def numbers (p : Program E) (cid : Nat) : List Nat := part (p.refreshed.map Prod.snd) cid

/-- The reconnects but for those in `out` wait for the refreshes that wait, each for one
that it has called for. The refreshes of a client are called for in the order of their
numbers. -/
structure Rounds (out : Nat → Prop) (p : Program E) : Prop where
  waits : ∀ cid n, refreshing p.server cid n = true →
    ∃ j rest, ¬ out j ∧ p.reconnects[j]? = some (.refresh cid n rest)
  stands : ∀ j cid n rest, ¬ out j → p.reconnects[j]? = some (.refresh cid n rest) →
    refreshing p.server cid n = true ∧ (j, cid, n) ∈ p.refreshed
  numbered : ∀ cid, numbers p cid = List.range (refreshCount p.server cid)
  known : ∀ x ∈ p.refreshed, x.1 < p.reconnects.length

theorem numbers_call (p : Program E) (cid n c : Nat) :
    numbers { p with refreshed := p.refreshed ++ [(i, cid, n)] } c =
      if cid = c then numbers p c ++ [n] else numbers p c := by
  unfold numbers
  rw [List.map_append, part_append, List.map_singleton, part_cons]
  split
  · rfl
  · exact List.append_nil _

/-- A call of `refresh_config`, by a reconnect that waits for no other. -/
theorem Rounds.call (h : Rounds (· = i) p) (hi : i < p.reconnects.length) {cid : Nat}
    (hcid : cid < p.server.handlers.length) :
    let q := { p with
      server := refreshConfig pb p.server cid
      refreshed := p.refreshed ++ [(i, cid, refreshCount p.server cid)] }
    (refreshing q.server cid (refreshCount p.server cid) = false → Rounds (· = i) q) ∧
      (refreshing q.server cid (refreshCount p.server cid) = true → ∀ rest,
        Rounds (fun _ => False) { q with
          reconnects := p.reconnects.set i (.refresh cid (refreshCount p.server cid) rest) }) := by
  intro q
  have hnew (c m : Nat) (hne : ¬ (c = cid ∧ m = refreshCount p.server cid)) :
      refreshing q.server c m = refreshing p.server c m := refreshConfig_refreshing hcid hne
  have hold (j c m : Nat) (rest : List Nat) (hj : j ≠ i)
      (hr : p.reconnects[j]? = some (.refresh c m rest)) :
      refreshing q.server c m = true ∧ (j, c, m) ∈ q.refreshed := by
    obtain ⟨hwaits, hcalled⟩ := h.stands j c m rest hj hr
    refine ⟨?_, List.mem_append_left _ hcalled⟩
    rw [hnew c m, hwaits]
    intro ⟨hc, hm⟩
    subst hc
    subst hm
    exact Nat.lt_irrefl _ (refreshing_lt hwaits)
  have hnumbered (c : Nat) : numbers q c = List.range (refreshCount q.server c) := by
    refine (numbers_call p cid _ c).trans ?_
    rw [refreshConfig_count hcid, h.numbered]
    split
    · next hc =>
      subst hc
      rw [if_pos rfl, List.range_succ]
    · next hc => rw [if_neg (Ne.symm hc)]
  have hknown : ∀ x ∈ q.refreshed, x.1 < p.reconnects.length := by
    intro x hx
    rcases List.mem_append.mp hx with hx | hx
    · exact h.known x hx
    · rw [List.mem_singleton.mp hx]
      exact hi
  constructor
  · intro hover
    refine ⟨?_, hold, hnumbered, hknown⟩
    intro c m hwaits
    refine h.waits c m ?_
    rwa [hnew c m] at hwaits
    intro ⟨hc, hm⟩
    subst hc
    subst hm
    rw [hover] at hwaits
    cases hwaits
  · intro hstands rest
    refine ⟨?_, ?_, hnumbered, ?_⟩
    · intro c m hwaits
      by_cases hthis : c = cid ∧ m = refreshCount p.server cid
      · obtain ⟨rfl, rfl⟩ := hthis
        exact ⟨i, rest, not_false, List.getElem?_set_self hi⟩
      · have hbefore : refreshing p.server c m = true := (hnew c m hthis).symm.trans hwaits
        obtain ⟨j, left, hj, hr⟩ := h.waits c m hbefore
        exact ⟨j, left, not_false, (List.getElem?_set_ne (Ne.symm hj)).trans hr⟩
    · intro j c m left _ hr
      by_cases hj : j = i
      · subst hj
        rw [List.getElem?_set_self hi] at hr
        cases hr
        exact ⟨hstands, List.mem_append_right _ (List.mem_singleton.mpr rfl)⟩
      · exact hold j c m left hj ((List.getElem?_set_ne (Ne.symm hj)).symm.trans hr)
    · intro x hx
      rw [List.length_set]
      exact hknown x hx

/-- A step that is not one of a refresh, and of no reconnect in one. -/
theorem Rounds.keep {out : Nat → Prop} (h : Rounds out p) (ht : SameTasks p.server p'.server)
    (hr : p'.refreshed = p.refreshed)
    (hw : ∀ (j cid n : Nat) (rest : List Nat),
      p'.reconnects[j]? = some (Await.refresh cid n rest) ↔
        p.reconnects[j]? = some (Await.refresh cid n rest))
    (hl : p.reconnects.length ≤ p'.reconnects.length) : Rounds out p' := by
  refine ⟨?_, ?_, ?_, ?_⟩
  · intro cid n hwaits
    rw [ht.refreshing] at hwaits
    obtain ⟨j, rest, hj, hstands⟩ := h.waits cid n hwaits
    exact ⟨j, rest, hj, (hw j cid n rest).mpr hstands⟩
  · intro j cid n rest hj hstands
    rw [ht.refreshing, hr]
    exact h.stands j cid n rest hj ((hw j cid n rest).mp hstands)
  · intro cid
    rw [ht.count, ← h.numbered, numbers, numbers, hr]
  · intro x hx
    rw [hr] at hx
    exact Nat.lt_of_lt_of_le (h.known x hx) hl

/-- A reconnect that is in no refresh. -/
theorem Rounds.leave (h : Rounds (fun _ => False) p) {await : Await}
    (hi : p.reconnects[i]? = some await) (ha : ∀ cid n rest, await ≠ .refresh cid n rest) :
    Rounds (· = i) p := by
  refine ⟨?_, fun j cid n rest _ => h.stands j cid n rest not_false, h.numbered, h.known⟩
  intro cid n hwaits
  obtain ⟨j, rest, -, hstands⟩ := h.waits cid n hwaits
  refine ⟨j, rest, ?_, hstands⟩
  intro hj
  subst hj
  cases hi.symm.trans hstands
  exact ha cid n rest rfl

theorem Rounds.goto (h : Rounds (· = i) p) {await : Await}
    (ha : ∀ cid n rest, await ≠ .refresh cid n rest) :
    Rounds (fun _ => False) { p with reconnects := p.reconnects.set i await } := by
  refine ⟨?_, ?_, h.numbered, ?_⟩
  · intro cid n hwaits
    obtain ⟨j, rest, hj, hstands⟩ := h.waits cid n hwaits
    exact ⟨j, rest, not_false, (List.getElem?_set_ne (Ne.symm hj)).trans hstands⟩
  · intro j cid n rest _ hstands
    by_cases hj : j = i
    · subst hj
      rw [List.getElem?_set] at hstands
      split at hstands
      · split at hstands
        · cases hstands
          exact absurd rfl (ha cid n rest)
        · cases hstands
      · exact absurd rfl ‹_›
    · exact h.stands j cid n rest hj ((List.getElem?_set_ne (Ne.symm hj)).symm.trans hstands)
  · intro x hx
    rw [List.length_set]
    exact h.known x hx

/-- A refresh is called for by one reconnect. -/
theorem Rounds.unique {out : Nat → Prop} (h : Rounds out p) {j k cid n : Nat}
    (hj : (j, cid, n) ∈ p.refreshed) (hk : (k, cid, n) ∈ p.refreshed) : j = k := by
  have hnodup : (numbers p cid).Nodup := by
    rw [h.numbered]
    exact List.nodup_range
  rw [numbers, part, List.filter_map, List.map_map] at hnodup
  have hsame := List.inj_on_of_nodup_map hnodup
    (List.mem_filter.mpr ⟨hj, by simp⟩) (List.mem_filter.mpr ⟨hk, by simp⟩) rfl
  exact congrArg Prod.fst hsame

/-- A drain that returns in a refresh. -/
theorem Rounds.resume (h : Rounds (fun _ => False) p) {cid n : Nat} {rest : List Nat} {lost : Bool}
    (hi : p.reconnects[i]? = some (.refresh cid n rest)) {server : TCPServer E}
    (hs : Server.step pb p.server (.client cid (.resumeRefresh n lost)) = some server) :
    (refreshing server cid n = true → Rounds (fun _ => False) { p with server }) ∧
      (refreshing server cid n = false → Rounds (· = i) { p with server }) := by
  have hnew (c m : Nat) (hne : ¬ (c = cid ∧ m = n)) :
      refreshing server c m = refreshing p.server c m := resumeRefresh_refreshing hs hne
  have hnumbered (c : Nat) : numbers { p with server } c = List.range (refreshCount server c) := by
    rw [resumeRefresh_count hs]
    exact h.numbered c
  obtain ⟨hwaited, hcalled⟩ := h.stands i cid n rest not_false hi
  constructor
  · intro hwaits
    have hsame (c m : Nat) : refreshing server c m = refreshing p.server c m := by
      by_cases hthis : c = cid ∧ m = n
      · rw [hthis.1, hthis.2, hwaits, hwaited]
      · exact hnew c m hthis
    refine ⟨?_, ?_, hnumbered, h.known⟩
    · intro c m hc
      rw [hsame] at hc
      exact h.waits c m hc
    · intro j c m left _ hj
      rw [hsame]
      exact h.stands j c m left not_false hj
  · intro hover
    refine ⟨?_, ?_, hnumbered, h.known⟩
    · intro c m hc
      have hthis : ¬ (c = cid ∧ m = n) := by
        intro ⟨hcid, hn⟩
        subst hcid
        subst hn
        rw [hover] at hc
        cases hc
      rw [hnew c m hthis] at hc
      obtain ⟨j, left, -, hj⟩ := h.waits c m hc
      refine ⟨j, left, ?_, hj⟩
      intro hji
      subst hji
      cases hi.symm.trans hj
      exact hthis ⟨rfl, rfl⟩
    · intro j c m left hj hstands
      obtain ⟨hc, hm⟩ := h.stands j c m left not_false hstands
      refine ⟨?_, hm⟩
      rw [hnew c m, hc]
      intro ⟨hcid, hn⟩
      subst hcid
      subst hn
      exact hj (h.unique hm hcalled)

/-- The loop over the clients, by a reconnect that waits for no refresh. -/
theorem Rounds.loop {cids : List Nat} (h : Rounds (· = i) p) (hi : i < p.reconnects.length)
    (hc : ∀ cid ∈ cids, cid < p.server.handlers.length) :
    Rounds (fun _ => False) (refreshAllClients pb i cids p) := by
  induction cids generalizing p with
  | nil => exact h.goto nofun
  | cons cid rest ih =>
    obtain ⟨hcid, hrest⟩ := List.forall_mem_cons.mp hc
    obtain ⟨hover, hstands⟩ := @Rounds.call E pb p i h hi cid hcid
    unfold refreshAllClients
    simp only
    split
    · next hwaits => exact hstands hwaits rest
    · next hwaits =>
      refine ih (hover (Bool.not_eq_true _ ▸ hwaits)) hi ?_
      intro c hm
      show c < (refreshConfig pb p.server cid).handlers.length
      rw [refreshConfig_length hcid]
      exact hrest c hm

theorem sameTasks_refl (s : TCPServer E) : SameTasks s s := fun _ => rfl

/-- A client's refreshes are left to the reconnects. -/
theorem sameTasks_allowed {e : Server.Event} (ha : allowed p e = true)
    {server : TCPServer E} (hs : Server.step pb p.server e = some server) :
    SameTasks p.server server := by
  refine Server.tasksOf_step hs ?_
  cases e with
  | client cid ce =>
    cases ce with
    | refresh | resumeRefresh => cases ha
    | _ => rfl
  | _ => rfl

theorem sameTasks_cacheMyInfo (p : Program E) (ok : Bool) :
    SameTasks p.server (cacheMyInfo p ok).server := by
  unfold cacheMyInfo Server.cacheMyInfo
  cases ok with
  | false => exact sameTasks_refl _
  | true => cases p.server.phys.myInfo <;> exact sameTasks_refl _

theorem wake_refresh {await : Await} {c : Captured} {cid n : Nat} {rest : List Nat} :
    await.wake c = .refresh cid n rest ↔ await = .refresh cid n rest := by
  cases await <;> simp [Await.wake]

theorem Rounds.radioPayload (h : Rounds (fun _ => False) p) (payload : Bytes) :
    Rounds (fun _ => False) (radioPayload pb p payload) := by
  have hread : Rounds (fun _ => False)
      { p with server := Server.radioPayload pb p.server payload } :=
    h.keep (sameTasks_refl _) rfl (fun _ _ _ _ => Iff.rfl) (Nat.le_refl _)
  unfold Main.radioPayload
  cases capturedBy pb payload with
  | none => exact hread
  | some c =>
    refine hread.keep (sameTasks_refl _) rfl ?_ (Nat.le_of_eq (List.length_map _).symm)
    intro j cid n rest
    show (p.reconnects.map (Await.wake c))[j]? = _ ↔ _
    rw [List.getElem?_map, Option.map_eq_some_iff]
    simp only [wake_refresh]
    exact exists_eq_right

theorem Rounds.step (hsound : Sound p) (h : Rounds (fun _ => False) p) {e : Event}
    (hs : Main.step pb p e = some p') : Rounds (fun _ => False) p' := by
  have hinBounds {i : Nat} {await : Await} (hi : p.reconnects[i]? = some await) :
      i < p.reconnects.length := (List.getElem?_eq_some_iff.mp hi).1
  cases step_stepped hs with
  | chunk hl =>
    refine radioChunk_keeps ?_ ?_ fun q payload hq => hq.radioPayload payload
    · exact h.keep (sameTasks_refl _) rfl (fun _ _ _ _ => Iff.rfl) (Nat.le_refl _)
    · exact h.keep (sameTasks_refl _) rfl (fun _ _ _ _ => Iff.rfl) (Nat.le_refl _)
  | connected hl hr =>
    refine h.keep (sameTasks_refl _) rfl ?_ ?_
    · intro j cid n rest
      show (p.reconnects ++ [Await.start])[j]? = _ ↔ _
      rw [List.getElem?_append]
      split
      · exact Iff.rfl
      · next hj =>
        rw [List.getElem?_eq_none (Nat.le_of_not_lt hj), List.getElem?_singleton]
        split <;> exact iff_of_false nofun nofun
    · show p.reconnects.length ≤ (p.reconnects ++ [Await.start]).length
      rw [List.length_append]
      exact Nat.le_add_right _ _
  | server ha hserver =>
    exact h.keep (sameTasks_allowed ha hserver) rfl (fun _ _ _ _ => Iff.rfl) (Nat.le_refl _)
  | starts hi => exact (h.leave hi nofun).goto nofun
  | @identifies i woken ok outcome hi hw =>
    have hkept : Rounds (fun _ => False) (cacheMyInfo p ok) :=
      h.keep (sameTasks_cacheMyInfo p ok) rfl (fun _ _ _ _ => Iff.rfl) (Nat.le_refl _)
    exact (hkept.leave hi nofun).goto nofun
  | captures hi hw =>
    have hkept : Rounds (fun _ => False) (captureDefaults pb p) :=
      h.keep (sameTasks_refl _) rfl (fun _ _ _ _ => Iff.rfl) (Nat.le_refl _)
    exact (hkept.leave hi nofun).loop (hinBounds hi) hsound.registered.connected
  | drained hi hserver hwaits => exact (h.resume hi hserver).1 hwaits
  | @refreshed i cid n rest lost server hi hserver hover =>
    refine ((h.resume hi hserver).2 hover).loop (hinBounds hi) ?_
    intro c hc
    show c < server.handlers.length
    rw [Server.handlers_length_step hserver]
    exact hsound.refreshes _ (List.mem_of_getElem? hi) c (List.mem_cons_of_mem _ hc)
  | mainIdentifies hm hw =>
    exact h.keep (sameTasks_cacheMyInfo p _) rfl (fun _ _ _ _ => Iff.rfl) (Nat.le_refl _)
  | link | mainCaptures | stops | disconnects =>
    exact h.keep (sameTasks_refl _) rfl (fun _ _ _ _ => Iff.rfl) (Nat.le_refl _)

/-! ## Whom a reconnect refreshes -/

/-- The clients that a reconnect behind its capture has yet to refresh. -/
def Await.left : Await → Option (List Nat)
  | .refresh _ _ rest => some rest
  | .done => some []
  | _ => none

def left (p : Program E) (i : Nat) : Option (List Nat) := p.reconnects[i]?.bind Await.left

theorem Await.After.left {cids : List Nat} {calls : List (Nat × Nat)} {await : Await}
    (h : await.After cids calls) :
    ∃ rest, await.left = some rest ∧ calls.map Prod.fst ++ rest = cids := by
  rcases h with ⟨rfl, hcalls⟩ | ⟨before, cid, n, rest, rfl, rfl, hcalls⟩
  · exact ⟨[], rfl, (List.append_nil _).trans hcalls⟩
  · exact ⟨rest, rfl, hcalls⟩

/-- What a step does for the reconnect `i`. -/
inductive Advances (p : Program E) (e : Event) (i : Nat) (p' : Program E) : Prop
  | kept : left p' i = left p i → part p'.refreshed i = part p.refreshed i → Advances p e i p'
  | went {cids : List Nat} {calls : List (Nat × Nat)} {rest : List Nat} : left p i = some cids →
      left p' i = some rest → part p'.refreshed i = part p.refreshed i ++ calls →
      calls.map Prod.fst ++ rest = cids → Advances p e i p'
  | captured {calls : List (Nat × Nat)} {rest : List Nat} {outcome : Outcome} {woken : Bool} :
      e = .reconnect i outcome → p.reconnects[i]? = some (.wait .metadata woken) →
      left p' i = some rest → part p'.refreshed i = part p.refreshed i ++ calls →
      calls.map Prod.fst ++ rest = p.server.registry → Advances p e i p'

theorem part_calls (calls : List (Nat × Nat)) (i j : Nat) :
    part (calls.map (i, ·)) j = if i = j then calls else [] := by
  induction calls with
  | nil => simp
  | cons call calls ih =>
    rw [List.map_cons, part_cons, ih]
    split <;> rfl

theorem loop_left {cids : List Nat} (hi : i < p.reconnects.length) : ∃ calls rest,
    left (refreshAllClients pb i cids p) i = some rest ∧
      part (refreshAllClients pb i cids p).refreshed i = part p.refreshed i ++ calls ∧
      calls.map Prod.fst ++ rest = cids := by
  obtain ⟨calls, await, hcalls, hset, hafter⟩ := @refreshAllClients_calls E pb i cids p
  obtain ⟨rest, hleft, hrest⟩ := hafter.left
  refine ⟨calls, rest, ?_, ?_, hrest⟩
  · rw [left, hset, List.getElem?_set_self hi]
    exact hleft
  · rw [hcalls, part_append, part_calls, if_pos rfl]

theorem loop_left_ne {cids : List Nat} {j : Nat} (hj : i ≠ j) :
    left (refreshAllClients pb i cids p) j = left p j ∧
      part (refreshAllClients pb i cids p).refreshed j = part p.refreshed j := by
  obtain ⟨calls, await, hcalls, hset, -⟩ := @refreshAllClients_calls E pb i cids p
  constructor
  · rw [left, hset, List.getElem?_set_ne hj]
    rfl
  · rw [hcalls, part_append, part_calls, if_neg hj, List.append_nil]

theorem left_wake (c : Captured) (await : Await) : (await.wake c).left = await.left := by
  cases await <;> rfl

theorem radioPayload_left (p : Program E) (payload : Bytes) (i : Nat) :
    left (radioPayload pb p payload) i = left p i ∧
      (radioPayload pb p payload).refreshed = p.refreshed := by
  unfold radioPayload
  cases capturedBy pb payload with
  | none => exact ⟨rfl, rfl⟩
  | some c =>
    refine ⟨?_, rfl⟩
    show (p.reconnects.map (Await.wake c))[i]?.bind Await.left = p.reconnects[i]?.bind Await.left
    rw [List.getElem?_map]
    cases p.reconnects[i]? with
    | none => rfl
    | some await => exact left_wake c await

/-- A reconnect that is in no refresh goes to another wait. -/
theorem advances_goto {q : Program E} {e : Event} {i : Nat} {before after : Await}
    (hr : q.refreshed = p.refreshed)
    (hi : p.reconnects[i]? = some before) (hb : before.left = none) (ha : after.left = none)
    (j : Nat) : Advances p e j { q with reconnects := p.reconnects.set i after } := by
  refine .kept ?_ (congrArg (part · j) hr)
  unfold left
  by_cases hj : i = j
  · subst hj
    rw [List.getElem?_set_self (List.getElem?_eq_some_iff.mp hi).1, hi]
    exact ha.trans hb.symm
  · rw [List.getElem?_set_ne hj]

theorem advances_step {e : Event} (hs : step pb p e = some p') (j : Nat) :
    Advances p e j p' := by
  have hinBounds {i : Nat} {await : Await} (hi : p.reconnects[i]? = some await) :
      i < p.reconnects.length := (List.getElem?_eq_some_iff.mp hi).1
  cases step_stepped hs with
  | @chunk i chunk nonce link hl =>
    have hkept : left (radioChunk pb { p with link } i chunk) j = left p j ∧
        (radioChunk pb { p with link } i chunk).refreshed = p.refreshed := by
      refine radioChunk_keeps (P := fun q => left q j = left p j ∧ q.refreshed = p.refreshed)
        ⟨rfl, rfl⟩ ⟨rfl, rfl⟩ ?_
      intro q payload hq
      exact ⟨(radioPayload_left q payload j).1.trans hq.1,
        (radioPayload_left q payload j).2.trans hq.2⟩
    exact .kept hkept.1 (congrArg (part · j) hkept.2)
  | connected hl hr =>
    refine .kept ?_ rfl
    unfold left
    show (p.reconnects ++ [Await.start])[j]?.bind Await.left = p.reconnects[j]?.bind Await.left
    rw [List.getElem?_append]
    split
    · rfl
    · next hj =>
      rw [List.getElem?_eq_none (Nat.le_of_not_lt hj), List.getElem?_singleton]
      split <;> rfl
  | starts hi => exact advances_goto rfl hi rfl rfl j
  | @identifies i woken ok outcome hi hw =>
    exact @advances_goto E p (cacheMyInfo p ok) _ i _ _ rfl hi rfl rfl j
  | @captures i woken ok outcome hi hw =>
    by_cases hj : i = j
    · subst hj
      obtain ⟨calls, rest, hleft, hcalls, hrest⟩ :=
        @loop_left E pb (captureDefaults pb p) i p.server.registry (hinBounds hi)
      exact .captured rfl hi hleft hcalls hrest
    · obtain ⟨hleft, hcalls⟩ := @loop_left_ne E pb (captureDefaults pb p) i p.server.registry j hj
      exact .kept hleft hcalls
  | @refreshed i cid n rest lost server hi hserver hover =>
    by_cases hj : i = j
    · subst hj
      have hleft : left p i = some rest := by rw [left, hi]; rfl
      obtain ⟨calls, rest', hleft', hcalls, hrest⟩ :=
        @loop_left E pb { p with server } i rest (hinBounds hi)
      exact .went hleft hleft' hcalls hrest
    · obtain ⟨hleft, hcalls⟩ := @loop_left_ne E pb { p with server } i rest j hj
      exact .kept hleft hcalls
  | link | server | drained | mainIdentifies | mainCaptures | stops | disconnects =>
    exact .kept rfl rfl

section
variable {config : AppConfig} {phys : PhysicalNodeConfig} {failed : Option ConnectAwait}
  {nonce : UInt32} {es : List Event}

theorem rounds_start (config : AppConfig) (phys : PhysicalNodeConfig)
    (failed : Option ConnectAwait) (nonce : UInt32) :
    Rounds (fun _ => False) (start pb config phys failed nonce) := by
  have hserver : Rounds (fun _ => False) ({ server := Server.init config
                                            link := PhysicalNode.start pb phys failed nonce } : Program E) :=
    ⟨nofun, nofun, fun _ => rfl, List.forall_mem_nil _⟩
  unfold start
  simp only
  split
  · refine hserver.keep (sameTasks_refl _) rfl ?_ (Nat.zero_le _)
    intro j cid n rest
    show [Await.start][j]? = _ ↔ _
    rw [List.getElem?_singleton]
    split <;> exact iff_of_false nofun nofun
  · exact hserver

theorem run_rounds (hr : run (step pb) (start pb config phys failed nonce) es = some p) :
    Sound p ∧ Rounds (fun _ => False) p :=
  invariant (P := fun p => Sound p ∧ Rounds (fun _ => False) p)
    (fun _ _ _ h hs => ⟨h.1.step hs, h.2.step h.1 hs⟩)
    ⟨sound_start config phys failed nonce, rounds_start config phys failed nonce⟩ hr

/-- What the reconnect `i` has called for is what it found registered when it captured the
configuration, but for the clients it has left. -/
structure Called (pb : Protobuf E) (first : Program E) (i : Nat) (es : List Event)
    (p : Program E) : Prop where
  waiting : left p i = none → part p.refreshed i = []
  captured : ∀ rest, left p i = some rest → ∃ before outcome after u woken,
    es = before ++ .reconnect i outcome :: after ∧ run (step pb) first before = some u ∧
      u.reconnects[i]? = some (.wait .metadata woken) ∧
      (part p.refreshed i).map Prod.fst ++ rest = u.server.registry

theorem Called.step {first : Program E} {e : Event} (hr : run (Main.step pb) first es = some p)
    (h : Called pb first i es p) (hs : Main.step pb p e = some p') :
    Called pb first i (es ++ [e]) p' := by
  cases advances_step hs i with
  | kept hleft hcalls =>
    refine ⟨fun hnone => hcalls.trans (h.waiting (hleft.symm.trans hnone)), ?_⟩
    intro rest hrest
    obtain ⟨before, outcome, after, u, woken, rfl, hu, hwaits, hcids⟩ :=
      h.captured rest (hleft.symm.trans hrest)
    exact ⟨before, outcome, after ++ [e], u, woken, by simp, hu, hwaits, hcalls ▸ hcids⟩
  | @went cids calls rest hleft hleft' hcalls hcids =>
    refine ⟨fun hnone => ?_, ?_⟩
    · cases hleft'.symm.trans hnone
    · intro rest' hrest'
      cases hleft'.symm.trans hrest'
      obtain ⟨before, outcome, after, u, woken, rfl, hu, hwaits, hfound⟩ := h.captured cids hleft
      refine ⟨before, outcome, after ++ [e], u, woken, by simp, hu, hwaits, ?_⟩
      rw [hcalls, List.map_append, List.append_assoc, hcids, hfound]
  | @captured calls rest outcome woken he hwaits hleft' hcalls hcids =>
    refine ⟨fun hnone => ?_, ?_⟩
    · cases hleft'.symm.trans hnone
    · intro rest' hrest'
      cases hleft'.symm.trans hrest'
      refine ⟨es, outcome, [], p, woken, by rw [he], hr, hwaits, ?_⟩
      have hnone : left p i = none := by
        rw [left, hwaits]
        rfl
      rw [hcalls, h.waiting hnone, List.nil_append, hcids]

theorem run_called (hr : run (step pb) (start pb config phys failed nonce) es = some p) (i : Nat) :
    Called pb (start pb config phys failed nonce) i es p := by
  refine invariant_history (P := Called pb (start pb config phys failed nonce) i) ?_
    (fun es t e u hr h hs => h.step hr hs) hr
  have hnone : left (start pb config phys failed nonce) i = none ∧
      (start pb config phys failed nonce).refreshed = [] := by
    unfold start
    simp only
    split
    · refine ⟨?_, rfl⟩
      show [Await.start][i]?.bind Await.left = none
      rw [List.getElem?_singleton]
      split <;> rfl
    · exact ⟨rfl, rfl⟩
  refine ⟨fun _ => ?_, fun rest hrest => ?_⟩
  · rw [hnone.2]
    rfl
  · cases hnone.1.symm.trans hrest

/-- **Each reconnect refreshes the clients there are, once each and one at a time.** Until it
has captured the configuration it refreshes none. From then on it has refreshed, in this
order, the clients that were registered in that moment, but for those it has left; and of
the refreshes it has called for, only the one it waits for can still be going on. -/
theorem run_refreshed (hr : run (step pb) (start pb config phys failed nonce) es = some p)
    {await : Await} (hi : p.reconnects[i]? = some await) :
    await.left = none ∧ part p.refreshed i = [] ∨
      ∃ rest before outcome after u woken, await.left = some rest ∧
        es = before ++ .reconnect i outcome :: after ∧
        run (step pb) (start pb config phys failed nonce) before = some u ∧
        u.reconnects[i]? = some (.wait .metadata woken) ∧
        (part p.refreshed i).map Prod.fst ++ rest = u.server.registry ∧
        ∀ cid n, (cid, n) ∈ part p.refreshed i →
          (refreshing p.server cid n = true ↔ await = .refresh cid n rest) := by
  have hcalled := run_called hr i
  obtain ⟨-, hrounds⟩ := run_rounds hr
  have hleft : left p i = await.left := by
    rw [left, hi]
    rfl
  cases hawait : await.left with
  | none => exact .inl ⟨rfl, hcalled.waiting (hleft.trans hawait)⟩
  | some rest =>
    obtain ⟨before, outcome, after, u, woken, hes, hu, hwaits, hcids⟩ :=
      hcalled.captured rest (hleft.trans hawait)
    refine .inr ⟨rest, before, outcome, after, u, woken, rfl, hes, hu, hwaits, hcids, ?_⟩
    intro cid n hm
    have hmine : (i, cid, n) ∈ p.refreshed := mem_part.mp hm
    constructor
    · intro hgoes
      obtain ⟨j, rest', -, hj⟩ := hrounds.waits cid n hgoes
      obtain rfl : j = i := hrounds.unique (hrounds.stands j cid n rest' not_false hj).2 hmine
      cases hi.symm.trans hj
      cases hawait
      rfl
    · intro hthis
      subst hthis
      exact (hrounds.stands i cid n rest not_false hi).1

/-- A client connects; the node is lost, and found again. -/
def relinked : List Event :=
  comesUp ++ [.server (.connect "127.0.0.1"), .link (.resume 0 (.chunk [])) 0,
    .link (.resume 1 .started) 0, .link (.resume 1 .returned) 0, .link (.resume 1 .returned) 0,
    .link (.resume 1 .returned) 0, .link (.resume 1 .returned) 0x07, .link (.resume 1 .returned) 0,
    .link (.resume 2 .started) 0, .reconnect 1 .started,
    .link (.resume 2 (.chunk (frame myInfoMessage))) 0]

set_option maxRecDepth 10000 in
/-- The second connection's reconnect refreshes the client. -/
theorem run_refreshed_relinked :
    ∃ p, run (step wire) (start wire {} {} none 0x05)
        (relinked ++ [.reconnect 1 .returned, .reconnect 1 .timedOut]) = some p ∧
      refreshing p.server 0 0 = true := by
  have hrun : (run (step wire) (start wire {} {} none 0x05)
      (relinked ++ [.reconnect 1 .returned, .reconnect 1 .timedOut])).map
        (fun p => (p.reconnects[1]?, part p.refreshed 1)) =
          some (some (.refresh 0 0 []), [(0, 0)]) := by decide
  obtain ⟨p, hp, hend⟩ := Option.map_eq_some_iff.mp hrun
  obtain ⟨hawait, hcalls⟩ := Prod.mk.inj hend
  rcases run_refreshed hp hawait with ⟨hnone, -⟩ | ⟨rest, _, _, _, _, _, hleft, -, -, -, -, hgoes⟩
  · cases hnone
  · cases hleft
    exact ⟨p, hp, (hgoes 0 0 (by rw [hcalls]; exact List.mem_singleton.mpr rfl)).mpr rfl⟩

/-- A reconnect calls for a refresh of a client once at most. -/
theorem run_callers (hr : run (step pb) (start pb config phys failed nonce) es = some p)
    (cid : Nat) : ((p.refreshed.filter fun x => x.2.1 = cid).map Prod.fst).Nodup := by
  refine List.nodup_iff_count_le_one.mpr ?_
  intro i
  have honce : ((part p.refreshed i).map Prod.fst).Nodup := by
    have hcalled := run_called hr i
    cases hleft : left p i with
    | none =>
      rw [hcalled.waiting hleft]
      exact List.nodup_nil
    | some rest =>
      obtain ⟨before, outcome, after, u, woken, -, hu, -, hcids⟩ := hcalled.captured rest hleft
      have hnodup := (run_rounds hu).1.registered.nodup
      rw [← hcids] at hnodup
      exact (List.nodup_append.mp hnodup).1
  have hcount := List.nodup_iff_count_le_one.mp honce cid
  have hsame : ((p.refreshed.filter fun x => x.2.1 = cid).map Prod.fst).count i =
      ((part p.refreshed i).map Prod.fst).count cid := by
    unfold part
    rw [List.map_map, List.count, List.count, List.countP_map, List.countP_map,
      List.countP_filter, List.countP_filter]
    refine List.countP_congr ?_
    intro x _
    simp [and_comm]
  rwa [hsame]

/-- **A client is refreshed once at most for each connection to the physical node.** -/
theorem run_refreshes_le (hr : run (step pb) (start pb config phys failed nonce) es = some p)
    (cid : Nat) : refreshCount p.server cid ≤ p.reconnects.length := by
  obtain ⟨-, hrounds⟩ := run_rounds hr
  have hnumbers : (numbers p cid).length = refreshCount p.server cid := by
    rw [hrounds.numbered, List.length_range]
  have hcallers : ((p.refreshed.filter fun x => x.2.1 = cid).map Prod.fst).length =
      (numbers p cid).length := by
    rw [numbers, part, List.filter_map, List.length_map, List.length_map, List.length_map]
    rfl
  have hknown : (p.refreshed.filter fun x => x.2.1 = cid).map Prod.fst ⊆
      List.range p.reconnects.length := by
    intro j hj
    obtain ⟨x, hx, rfl⟩ := List.mem_map.mp hj
    exact List.mem_range.mpr (hrounds.known x (List.mem_of_mem_filter hx))
  have hle := (List.subperm_of_subset (run_callers hr cid) hknown).length_le
  rw [List.length_range] at hle
  omega

set_option maxRecDepth 10000 in
theorem run_refreshes_le_relinked :
    ∃ p, run (step wire) (start wire {} {} none 0x05)
        (relinked ++ [.reconnect 1 .returned, .reconnect 1 .timedOut]) = some p ∧
      p.reconnects.length = 2 ∧ refreshCount p.server 0 ≤ 2 := by
  have hrun : (run (step wire) (start wire {} {} none 0x05)
      (relinked ++ [.reconnect 1 .returned, .reconnect 1 .timedOut])).map
        (fun p => p.reconnects.length) = some 2 := by decide
  obtain ⟨p, hp, hlen⟩ := Option.map_eq_some_iff.mp hrun
  have hle := run_refreshes_le hp 0
  rw [hlen] at hle
  exact ⟨p, hp, hlen, hle⟩

end

end Multiplextashtic.Main

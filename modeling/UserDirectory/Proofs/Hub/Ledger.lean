import Mathlib.Data.List.Nodup
import UserDirectory.Proofs.Hub.Closing
import UserDirectory.Proofs.Hub.Issued

/-!
# One sender at one connection

Someone sends frames to a connection, each only when the send before it has succeeded, and at last
unregisters the connection; meanwhile others do at the hub what they like. `Ledger` keeps account of
the operations that this sender has started. Whatever the others do, the frames of the sender reach
the sink of this one connection in the order in which they were sent, all of them but at most the
last, and each once.

It rests on two facts about single operations. What has returned stays as it returned, and a write
comes to a sink only while a task owes it. So only the last send can still come to the sink, and it
comes there once.
-/

namespace UserDirectory.Hub

/-- A sink is told to close when the connection is closed, and never again. -/
theorem Conduct.count_close {history : List (TaskId × Occurrence)} {closed : Bool}
    {call : Option Turn} (h : Conduct history closed call) :
    history.countP (fun x => x.2 = .called .close) = if closed then 1 else 0 := by
  induction h with
  | nil => rfl
  | called turn _ ih =>
    have hlast :
        (Occurrence.called turn.errand = .called .close) ↔ (turn.errand == .close) = true := by
      simp
    simp only [List.countP_append, ih, List.countP_singleton, hlast]
    simp
  | answered _ _ ih | passedOver _ _ _ ih => simpa [List.countP_append] using ih

namespace System

section Single

variable {s s' : System} {e : Event} {t : TaskId} {op : Operation} {hub : HubId} {c : ConnectionId}

/-! ## What has returned -/

theorem Sound.status_move (h : s.Sound) (hm : s.Move e s') {outcome : Outcome}
    (hstatus : s.status t = some (op, .finished outcome)) :
    s'.status t = some (op, .finished outcome) := by
  have houtcome : s.outcome? t = some outcome := outcome?_eq_some_iff.mpr ⟨op, hstatus⟩
  have hrest : s.AtRest t := atRest_of_returned (houtcome ▸ rfl)
  cases hm.advance h.lawful t with
  | rested hstatus' => exact hstatus'.trans hstatus
  | begun hnone =>
    rw [hnone] at hstatus
    cases hstatus
  | went _ hwent => exact absurd hrest hwent.not_atRest
  | ended _ _ howing =>
    rw [h.owing_of_atRest hrest] at howing
    exact absurd howing.symm.eq_nil (List.cons_ne_nil _ _)

/-- **What has returned stays as it returned.** -/
theorem Sound.outcome?_move (h : s.Sound) (hm : s.Move e s') {outcome : Outcome}
    (houtcome : s.outcome? t = some outcome) : s'.outcome? t = some outcome := by
  obtain ⟨op, hstatus⟩ := outcome?_eq_some_iff.mp houtcome
  exact outcome?_eq_some_iff.mpr ⟨op, h.status_move hm hstatus⟩

theorem Sound.returned_move (h : s.Sound) (hm : s.Move e s') (hreturned : (s.outcome? t).isSome) :
    (s'.outcome? t).isSome := by
  obtain ⟨outcome, houtcome⟩ := Option.isSome_iff_exists.mp hreturned
  exact Option.isSome_iff_exists.mpr ⟨outcome, h.outcome?_move hm houtcome⟩

/-! ## What comes to a sink -/

/-- **A frame comes to a sink while its task owes it**, and no other does. -/
theorem Move.sends (hm : s.Move e s') (c : ConnectionId) : s'.sends c = s.sends c ∨
    ∃ t payload, (c, .send payload) ∈ s.owing t ∧ s'.sends c = s.sends c ++ [(t, payload)] := by
  cases hm.change c with
  | untouched _ hlog | born _ _ hlog | joined _ _ _ hlog => exact .inl (sends_congr hlog)
  | passedOver _ _ _ _ _ hlog | answered _ _ _ _ _ hlog => exact .inl (sends_append hlog rfl)
  | @called conn turn rest hconn hline _ _ _ hlog =>
    have howed : (c, turn.errand) ∈ s.owing turn.task :=
      mem_owing_of_line hconn (hline ▸ List.mem_cons_self)
    cases herrand : turn.errand with
    | close => exact .inl (sends_append hlog (by rw [herrand]; rfl))
    | send payload =>
      refine .inr ⟨turn.task, payload, herrand ▸ howed, ?_⟩
      simp [System.sends, hlog, herrand, Occurrence.frame?]

theorem mem_sends_iff {payload : Octets} :
    (t, payload) ∈ s.sends c ↔ (t, .called (.send payload)) ∈ s.history c := by
  refine ⟨fun hmem => ?_, fun hmem => List.mem_filterMap.mpr ⟨_, hmem, rfl⟩⟩
  obtain ⟨⟨u, o⟩, hnoted, heq⟩ := List.mem_filterMap.mp hmem
  match o, heq with
  | .called (.send _), rfl => exact hnoted

theorem Sound.op?_of_sends (h : s.Sound) {payload : Octets} (hmem : (t, payload) ∈ s.sends c) :
    ∃ op, s.op? t = some op ∧ op.payload? = some payload :=
  Option.bind_eq_some_iff.mp (payload_of_sent h (mem_sends_iff.mp hmem) rfl)

/-- A sink is handed a frame of a task only if the task writes to it. -/
theorem Sound.mem_reach_of_sends (h : s.Sound) {payload : Octets}
    (hmem : (t, payload) ∈ s.sends c) : c ∈ s.reach t := by
  have hsent : payload ∈ s.sendsOf t c := by
    refine List.mem_filterMap.mpr ⟨_, mem_sends_iff.mp hmem, ?_⟩
    rw [if_pos rfl]
    rfl
  have hpos := List.length_pos_of_mem hsent
  have hbalance := (h.balance t c).1
  exact List.count_pos_iff.mp (by omega)

/-- **A sink is handed at most one frame of each task.** -/
theorem Sound.sends_nodup (h : s.Sound) (c : ConnectionId) : (s.sends c).Nodup := by
  suffices hfirst : ((s.sends c).map Prod.fst).Nodup from hfirst.of_map
  refine List.nodup_iff_count.mpr fun t => ?_
  have hcount : ((s.sends c).map Prod.fst).count t = (s.sendsOf t c).length := by
    rw [sendsOf, length_filterMap_history, List.count_eq_countP, List.countP_map, System.sends,
      List.countP_filterMap]
    refine List.countP_congr fun x _ => ?_
    cases x.2.frame? <;> simp
  have hbalance := (h.balance t c).1
  have honce := List.nodup_iff_count.mp (h.once t) c
  omega

theorem Sound.closes_eq (h : s.Sound) (c : ConnectionId) :
    s.closes c = if s.isClosed c then 1 else 0 := by
  obtain ⟨call, hconduct⟩ := h.conduct c
  rw [← hconduct.count_close, closes, history, List.countP_filterMap]
  refine List.countP_congr fun x _ => ?_
  by_cases hc : x.connection = c <;> simp [hc]

/-! ## One send -/

/-- A send writes to its connection and to no other. -/
theorem Standing.reach_sendTo {p : Progress} {payload : Octets} {d : ConnectionId}
    (h : Standing s t (.sendTo hub c payload) p) (hd : d ∈ s.reach t) : d = c := by
  have hone (hresults : s.results t = [])
      (howing : s.owing t = [(c, .send payload)]) : d = c := by
    simpa [reach, hresults, howing] using hd
  have hdone {result : Sent} (hresults : s.results t = [(c, result)])
      (howing : ∀ x ∈ s.owing t, x.2 = .close) : d = c := by
    have hnone : (s.owing t).filter (·.2 != .close) = [] :=
      List.filter_eq_nil_iff.mpr fun x hx => by simp [howing x hx]
    simpa [reach, hresults, hnone] using hd
  cases h with
  | starting _ howing hresults => simp [reach, howing, hresults] at hd
  | sending howing hresults => exact hone hresults howing
  | failed _ howing hresults => exact hdone hresults (by simp [howing])
  | dismissing _ _ howing hresults => exact hdone hresults (by simp [howing])
  | finished howing hsettled =>
    cases hsettled with
    | sendTo _ _ hresults => exact hdone hresults (by simp [howing])

/-- An unregistration writes to nobody. -/
theorem Standing.reach_unregister {p : Progress} (h : Standing s t (.unregister hub c) p) :
    s.reach t = [] := by
  cases h with
  | starting _ howing hresults => simp [reach, howing, hresults]
  | leaving _ _ howing hresults => simp [reach, howing, hresults]
  | finished howing hsettled =>
    cases hsettled with
    | unregister _ _ hresults => simp [reach, howing, hresults]

/-- The frame of a send that succeeded came to the sink. -/
theorem Sound.mem_sends_of_sent (h : s.Sound) {payload : Octets}
    (hstatus : s.status t = some (.sendTo hub c payload, .finished (.sent .ok))) :
    (t, payload) ∈ s.sends c := by
  cases h.standing hstatus with
  | finished _ hsettled =>
    cases hsettled with
    | sendTo _ _ hresults =>
      have hresult : (c, .ok) ∈ s.results t := hresults ▸ List.mem_singleton_self _
      obtain ⟨o, hnoted, ho⟩ := mem_results_iff.mp hresult
      obtain ⟨payload', rfl⟩ := eq_answered_of_result? ho
      obtain ⟨call, hconduct⟩ := h.conduct c
      have hcalled := hconduct.called_of_answered hnoted
      have hpayload := payload_of_sent h hcalled rfl
      rw [payload?, op?_of_status hstatus] at hpayload
      obtain rfl := Option.some.inj hpayload
      exact mem_sends_iff.mpr hcalled

theorem Sound.sent_of_sendTo (h : s.Sound) {payload : Octets} {outcome : Outcome}
    (hop : s.op? t = some (.sendTo hub c payload)) (houtcome : s.outcome? t = some outcome) :
    ∃ result, outcome = .sent result := by
  obtain ⟨op, hstatus⟩ := outcome?_eq_some_iff.mp houtcome
  obtain rfl := Option.some.inj ((op?_of_status hstatus).symm.trans hop)
  cases h.standing hstatus with
  | finished _ hsettled =>
    cases hsettled with
    | sendTo => exact ⟨_, rfl⟩

/-! ## One unregistration -/

/-- A connection has left if its unregistration has begun. -/
def Parted (s : System) (t : TaskId) (hub : HubId) (c : ConnectionId) : Prop :=
  ∀ p, s.status t = some (.unregister hub c, p) → p = .starting ∨ c ∉ s.members hub

theorem Parted.move (h : s.Parted t hub c) (hs : s.Sound) (hm : s.Move e s') {home : HubId}
    (hhome : s.home? c = some home) : s'.Parted t hub c := by
  intro p hp
  cases hm.advance hs.lawful t with
  | rested hstatus =>
    exact (h p (hstatus.symm.trans hp)).imp_right (hm.not_mem_members hhome)
  | begun _ hstatus =>
    obtain ⟨-, rfl⟩ := Prod.mk.inj (Option.some.inj (hstatus.symm.trans hp))
    exact .inl rfl
  | went _ hwent =>
    obtain ⟨rfl, rfl⟩ := Prod.mk.inj (Option.some.inj (hwent.status'.symm.trans hp))
    obtain ⟨hgoing, hhubs, hstatus⟩ := hwent
    refine .inr ?_
    cases hgoing with
    | unregister =>
      rw [members_congr hhubs]
      exact fun hmem => (mem_members_remove.mp hmem).2 rfl rfl
    | reviewed | reviewOk | reviewClosed | prune | dismiss =>
      exact hm.not_mem_members hhome ((h _ hstatus).resolve_left Progress.noConfusion)
  | ended _ hstatus howing =>
    obtain ⟨p₀, hp₀, rfl⟩ := status_of_after hstatus hp
    obtain rfl | hleft := h p₀ hp₀
    · rw [(hs.standing hp₀).of_starting.1] at howing
      exact absurd howing.symm.eq_nil (List.cons_ne_nil _ _)
    · exact .inr (hm.not_mem_members hhome hleft)

end Single

/-! ## The account -/

theorem op?_launch (s : System) (op : Operation) : (s.launch op).op? s.tasks.length = some op := by
  simp [op?, launch]

theorem op?_length (s : System) : s.op? s.tasks.length = none := by simp [op?]

/-- The frames that operations send, with their tasks. -/
def frames (started : List (TaskId × Operation)) : List (TaskId × Octets) :=
  started.filterMap fun x =>
    match x.2 with
    | .sendTo _ _ payload => some (x.1, payload)
    | _ => none

theorem mem_frames_iff {started : List (TaskId × Operation)} {t : TaskId} {payload : Octets} :
    (t, payload) ∈ frames started ↔ ∃ hub c, (t, .sendTo hub c payload) ∈ started := by
  rw [frames, List.mem_filterMap]
  refine ⟨fun ⟨⟨u, op⟩, hmem, heq⟩ => ?_, fun ⟨hub, c, hmem⟩ => ⟨_, hmem, rfl⟩⟩
  match op, heq with
  | .sendTo hub c _, rfl => exact ⟨hub, c, hmem⟩

/-- Tasks that are distinct have distinct frames. -/
theorem frames_nodup {started : List (TaskId × Operation)} (h : (started.map Prod.fst).Nodup) :
    (frames started).Nodup := by
  refine List.Pairwise.filterMap _ ?_ (List.pairwise_map.mp h)
  rintro ⟨t, op⟩ ⟨t', op'⟩ hne x hx x' hx' rfl
  match op, hx, op', hx' with
  | .sendTo _ _ _, rfl, .sendTo _ _ _, heq =>
    exact hne (congrArg Prod.fst (Option.some.inj heq)).symm

/-- `started` are the operations that a sender at the connection `c` has started so far. -/
structure Ledger (s : System) (hub : HubId) (c : ConnectionId)
    (started : List (TaskId × Operation)) : Prop where
  sound : s.Sound
  home : s.home? c = some hub
  issued : ∀ {t op}, (t, op) ∈ started → s.op? t = some op
  /-- they are sends to the connection, and its unregistration -/
  kind : ∀ {t op}, (t, op) ∈ started →
    (∃ payload, op = .sendTo hub c payload) ∨ op = .unregister hub c
  distinct : (started.map Prod.fst).Nodup
  parted : ∀ {t}, (t, .unregister hub c) ∈ started → s.Parted t hub c
  /-- all frames but at most the last have come to the sink, in their order -/
  arrived : ∃ pending, frames started = (s.sends c).filter (· ∈ frames started) ++ pending ∧
    pending.length ≤ 1

section Ledger

variable {s s' : System} {e : Event} {hub : HubId} {c : ConnectionId}
  {started : List (TaskId × Operation)}

theorem ledger_nil (hs : s.Sound) (hhome : s.home? c = some hub) : Ledger s hub c [] where
  sound := hs
  home := hhome
  issued := nofun
  kind := nofun
  distinct := .nil
  parted := nofun
  arrived := ⟨[], by simp [frames], Nat.zero_le _⟩

/-- **Whatever happens at the hub, the frames come in order.** -/
theorem Ledger.move (h : Ledger s hub c started) (hm : s.Move e s') : Ledger s' hub c started where
  sound := sound_move h.sound hm
  home := hm.home? h.home
  issued hmem := (hm.advance h.sound.lawful _).op? (h.issued hmem)
  kind := h.kind
  distinct := h.distinct
  parted hmem := (h.parted hmem).move h.sound hm h.home
  arrived := by
    obtain ⟨pending, hsplit, hlength⟩ := h.arrived
    obtain hsends | ⟨t, payload, -, hsends⟩ := hm.sends c
    · exact ⟨pending, hsends ▸ hsplit, hlength⟩
    · by_cases hown : (t, payload) ∈ frames started
      · -- it was not there before, so it is the one that was pending
        have hnodup := (sound_move h.sound hm).sends_nodup c
        rw [hsends, ← List.concat_eq_append, List.nodup_concat] at hnodup
        have hpending : (t, payload) ∈ pending := by
          rw [hsplit] at hown
          exact (List.mem_append.mp hown).resolve_left fun hmem =>
            hnodup.1 (List.mem_filter.mp hmem).1
        obtain rfl : pending = [(t, payload)] := by
          match pending, hlength, hpending with
          | [x], _, hmem => rw [List.mem_singleton.mp hmem]
        refine ⟨[], ?_, Nat.zero_le _⟩
        rw [hsends, List.filter_append, List.filter_cons_of_pos (by simpa using hown),
          List.filter_nil, List.append_nil]
        exact hsplit
      · refine ⟨pending, ?_, hlength⟩
        rw [hsends, List.filter_append, List.filter_cons_of_neg (by simpa using hown),
          List.filter_nil, List.append_nil]
        exact hsplit

theorem Ledger.status_of_outcome (h : Ledger s hub c started) {t : TaskId} {op : Operation}
    {outcome : Outcome} (hmem : (t, op) ∈ started) (houtcome : s.outcome? t = some outcome) :
    s.status t = some (op, .finished outcome) := by
  obtain ⟨op', hstatus⟩ := outcome?_eq_some_iff.mp houtcome
  obtain rfl := Option.some.inj ((op?_of_status hstatus).symm.trans (h.issued hmem))
  exact hstatus

/-- What succeeded has come to the sink. -/
theorem Ledger.mem_sends (h : Ledger s hub c started) {t : TaskId} {payload : Octets}
    (hmem : (t, payload) ∈ frames started) (hsent : s.outcome? t = some (.sent .ok)) :
    (t, payload) ∈ s.sends c := by
  obtain ⟨hub', c', hstarted⟩ := mem_frames_iff.mp hmem
  have hstatus := h.status_of_outcome hstarted hsent
  obtain ⟨payload', heq⟩ | heq := h.kind hstarted
  · obtain ⟨rfl, rfl, rfl⟩ := Operation.sendTo.inj heq
    exact h.sound.mem_sends_of_sent hstatus
  · cases heq

/-- Once all sends have succeeded, the sink has got all frames. -/
theorem Ledger.all_arrived (h : Ledger s hub c started)
    (hall : ∀ x ∈ frames started, s.outcome? x.1 = some (.sent .ok)) :
    (s.sends c).filter (· ∈ frames started) = frames started := by
  obtain ⟨pending, hsplit, -⟩ := h.arrived
  have hnodup := frames_nodup h.distinct
  rw [hsplit] at hnodup
  have hnone : pending = [] := List.eq_nil_iff_forall_not_mem.mpr fun x hx => by
    have hmem : x ∈ frames started := hsplit ▸ List.mem_append_right _ hx
    have hsent : x ∈ (s.sends c).filter (· ∈ frames started) :=
      List.mem_filter.mpr ⟨h.mem_sends hmem (hall x hmem), decide_eq_true hmem⟩
    exact (List.nodup_append.mp hnodup).2.2 x hsent x hx rfl
  rw [hnone, List.append_nil] at hsplit
  exact hsplit.symm

/-- A new task is none of those that were started. -/
theorem Ledger.fresh (h : Ledger s hub c started) :
    s.tasks.length ∉ started.map Prod.fst := fun hmem => by
  obtain ⟨⟨t, op⟩, hstarted, ht⟩ := List.mem_map.mp hmem
  have hop := h.issued hstarted
  rw [show t = s.tasks.length from ht, op?_length] at hop
  cases hop

/-- One more operation is started, of which no frame has come to the sink. -/
theorem Ledger.launch (h : Ledger s hub c started) {op : Operation}
    (hkind : (∃ payload, op = .sendTo hub c payload) ∨ op = .unregister hub c)
    (harrived : ∃ pending, frames (started ++ [(s.tasks.length, op)]) =
      (s.sends c).filter (· ∈ frames (started ++ [(s.tasks.length, op)])) ++ pending ∧
        pending.length ≤ 1) :
    Ledger (s.launch op) hub c (started ++ [(s.tasks.length, op)]) := by
  have h' : Ledger (s.launch op) hub c started := h.move (.start op)
  refine ⟨h'.sound, h'.home, fun {t op'} hmem => ?_, fun {t op'} hmem => ?_, ?_,
    fun {t} hmem => ?_, harrived⟩
  · obtain hmem | hmem := List.mem_append.mp hmem
    · exact h'.issued hmem
    · obtain ⟨rfl, rfl⟩ := Prod.mk.inj (List.mem_singleton.mp hmem)
      exact op?_launch s op'
  · obtain hmem | hmem := List.mem_append.mp hmem
    · exact h.kind hmem
    · obtain ⟨rfl, rfl⟩ := Prod.mk.inj (List.mem_singleton.mp hmem)
      exact hkind
  · rw [List.map_append, List.map_singleton, ← List.concat_eq_append]
    exact h.distinct.concat h.fresh
  · obtain hmem | hmem := List.mem_append.mp hmem
    · exact h'.parted hmem
    · -- it has not begun
      obtain ⟨rfl, rfl⟩ := Prod.mk.inj (List.mem_singleton.mp hmem)
      intro p hp
      have hstatus : (s.launch (.unregister hub c)).status s.tasks.length =
          some (.unregister hub c, .starting) := by simp [status, System.launch]
      obtain ⟨-, rfl⟩ := Prod.mk.inj (Option.some.inj (hstatus.symm.trans hp))
      exact .inl rfl

/-- **The next frame is sent** when all before it have succeeded. -/
theorem Ledger.send (h : Ledger s hub c started)
    (hall : ∀ x ∈ frames started, s.outcome? x.1 = some (.sent .ok)) (payload : Octets) :
    Ledger (s.launch (.sendTo hub c payload)) hub c
      (started ++ [(s.tasks.length, .sendTo hub c payload)]) := by
  refine h.launch (.inl ⟨payload, rfl⟩) ⟨[(s.tasks.length, payload)], ?_, Nat.le_refl 1⟩
  have hframes : frames (started ++ [(s.tasks.length, .sendTo hub c payload)]) =
      frames started ++ [(s.tasks.length, payload)] := by simp [frames]
  have hsame : ∀ x ∈ s.sends c,
      decide (x ∈ frames started ++ [(s.tasks.length, payload)]) = decide (x ∈ frames started) := by
    rintro ⟨t, payload'⟩ hx
    obtain ⟨op, hop, -⟩ := h.sound.op?_of_sends hx
    have hne : t ≠ s.tasks.length := fun heq => by
      rw [heq, op?_length] at hop
      cases hop
    simp [hne]
  rw [hframes, List.filter_congr hsame, h.all_arrived hall]

/-- The connection is unregistered. -/
theorem Ledger.leave (h : Ledger s hub c started) :
    Ledger (s.launch (.unregister hub c)) hub c
      (started ++ [(s.tasks.length, .unregister hub c)]) := by
  refine h.launch (.inr rfl) ?_
  have hframes : frames (started ++ [(s.tasks.length, .unregister hub c)]) = frames started := by
    simp [frames]
  rw [hframes]
  exact h.arrived

/-! ## What the account says -/

theorem Ledger.frames_prefix (h : Ledger s hub c started) :
    (s.sends c).filter (· ∈ frames started) <+: frames started := by
  obtain ⟨pending, hsplit, -⟩ := h.arrived
  exact ⟨pending, hsplit.symm⟩

/-- Nothing is written to another connection. -/
theorem Ledger.elsewhere (h : Ledger s hub c started) {t : TaskId} {op : Operation}
    (hmem : (t, op) ∈ started) {d : ConnectionId} (hd : d ≠ c) (payload : Octets) :
    (t, payload) ∉ s.sends d := fun hsent => by
  obtain ⟨p, hstatus⟩ := status_of_op? (h.issued hmem)
  have hreach := h.sound.mem_reach_of_sends hsent
  obtain ⟨payload', rfl⟩ | rfl := h.kind hmem
  · exact hd ((h.sound.standing hstatus).reach_sendTo hreach)
  · rw [(h.sound.standing hstatus).reach_unregister] at hreach
    cases hreach

/-- **When the unregistration has returned, the connection is out and its sink was closed.** -/
theorem Ledger.gone (h : Ledger s hub c started) {t : TaskId} {outcome : Outcome}
    (hmem : (t, .unregister hub c) ∈ started) (houtcome : s.outcome? t = some outcome) :
    c ∉ s.members hub ∧ s.isClosed c = true ∧ s.closes c = 1 := by
  have hstatus := h.status_of_outcome hmem houtcome
  have hclosed := h.sound.closed_of_unregistered hstatus
  exact ⟨(h.parted hmem _ hstatus).resolve_left Progress.noConfusion, hclosed,
    by rw [h.sound.closes_eq, if_pos hclosed]⟩

end Ledger

end System

end UserDirectory.Hub

import UserDirectory.Proofs.Hub.Members
import UserDirectory.Proofs.Hub.Standing

/-!
# What holds in every system

`Sound` puts together what every event keeps: the grammar of each connection, the standing of each
task, that the members of a registry are distinct connections, that a task writes to a connection at
most once, and that it writes nothing but the payload of its operation. `sound_reachable` lifts it
to all runs.

Two facts are about the course of a run: the operation of a task does not change, and neither do the
connections to which it writes, once it has begun.
-/

namespace UserDirectory.Hub

/-- The frame that an operation writes. -/
def Operation.payload? : Operation → Option Octets
  | broadcast _ payload _ => some payload
  | sendTo _ _ payload => some payload
  | _ => none

namespace System

/-- The operation of a task. -/
def op? (s : System) (t : TaskId) : Option Operation := s.tasks[t]?.map (·.op)

/-- The frame that a task writes. -/
def payload? (s : System) (t : TaskId) : Option Octets := (s.op? t).bind (·.payload?)

theorem op?_of_status {s : System} {t : TaskId} {op : Operation} {p : Progress}
    (h : s.status t = some (op, p)) : s.op? t = some op := by
  obtain ⟨task, htask, rfl, -⟩ := status_eq_some_iff.mp h
  simp [op?, htask]

theorem status_of_op? {s : System} {t : TaskId} {op : Operation} (h : s.op? t = some op) :
    ∃ p, s.status t = some (op, p) := by
  obtain ⟨task, htask, rfl⟩ := Option.map_eq_some_iff.mp h
  exact ⟨task.progress, status_eq_some_iff.mpr ⟨task, htask, rfl, rfl⟩⟩

/-- A task keeps its operation. -/
theorem Advance.op? {s s' : System} {e : Event} {t : TaskId} {op : Operation}
    (h : Advance s e s' t) (hop : s.op? t = some op) : s'.op? t = some op := by
  obtain ⟨p, hp⟩ := status_of_op? hop
  cases h with
  | rested hstatus => exact op?_of_status (hstatus.trans hp)
  | begun hnone => rw [hnone] at hp; cases hp
  | went _ h =>
    obtain ⟨rfl, -⟩ := Prod.mk.inj (Option.some.inj (hp.symm.trans h.status))
    exact op?_of_status h.status'
  | ended result hstatus =>
    rw [hp, Option.map_some] at hstatus
    exact op?_of_status hstatus

/-- A task has its operation from the event that started it. -/
theorem Advance.started {s s' : System} {e : Event} {t : TaskId} {op : Operation}
    (h : Advance s e s' t) (hop : s'.op? t = some op) : s.op? t = some op ∨ e = .start op := by
  obtain ⟨p, hp⟩ := status_of_op? hop
  cases h with
  | rested hstatus => exact .inl (op?_of_status (hstatus.symm.trans hp))
  | begun _ hstatus _ _ hstart =>
    obtain ⟨rfl, -⟩ := Prod.mk.inj (Option.some.inj (hp.symm.trans hstatus))
    exact .inr hstart
  | went _ h =>
    obtain ⟨rfl, -⟩ := Prod.mk.inj (Option.some.inj (hp.symm.trans h.status'))
    exact .inl (op?_of_status h.status)
  | ended result hstatus =>
    obtain ⟨p₀, hp₀, -⟩ := status_of_after hstatus hp
    exact .inl (op?_of_status hp₀)

/-! ## To whom a task writes -/

theorem reach_ended {s s' : System} {t : TaskId} {c : ConnectionId} {errand : Errand}
    {result : Sent} (howing : (s.owing t).Perm ((c, errand) :: s'.owing t))
    (hresults : s'.results t = s.results t ++ ended c errand result) :
    (s'.reach t).Perm (s.reach t) := by
  have hwrites := ((howing.filter (·.2 != .close)).map Prod.fst).symm
  unfold reach
  cases errand with
  | send payload =>
    simp only [hresults, ended, List.map_append, List.append_assoc]
    exact hwrites.append_left _
  | close =>
    simp only [hresults, ended, List.append_nil]
    exact hwrites.append_left _

theorem reach_congr {s s' : System} {t : TaskId} (howing : (s'.owing t).Perm (s.owing t))
    (hresults : s'.results t = s.results t) : (s'.reach t).Perm (s.reach t) := by
  unfold reach
  rw [hresults]
  exact ((howing.filter _).map _).append_left _

/-- The connections to which a task begins to write. -/
def targets (s : System) : Operation → List ConnectionId
  | .broadcast hub _ except => (s.members hub).filter fun c => some c != except
  | .sendTo _ c _ => [c]
  | _ => []

theorem Going.writes {s s₁ : System} {op : Operation} {p p' : Progress}
    {asks : List (ConnectionId × Errand)} (h : Going s op p s₁ p' asks) :
    (asks.filter (·.2 != .close)).map Prod.fst = if p = .starting then s.targets op else [] := by
  cases h with
  | @broadcast hub payload except asked hasked =>
    have hall : ∀ x ∈ asked.map (·, Errand.send payload), (x.2 != .close) = true := by
      intro x hx
      obtain ⟨c, -, rfl⟩ := List.mem_map.mp hx
      rfl
    rw [List.filter_eq_self.mpr hall, List.map_map, if_pos rfl, targets, hasked]
    exact List.map_id' _
  | broadcastNone hnone => simp [targets, hnone]
  | closeAll hub => simp [targets]
  | register | unregister | sendTo | closeNone | contains | count | reviewed | reviewOk
  | reviewClosed | prune | dismiss => simp [targets]

/-- A task that is about to go on by itself owes nothing. -/
theorem Standing.owing_eq_nil {s s₁ : System} {t : TaskId} {op : Operation} {p p' : Progress}
    {asks : List (ConnectionId × Errand)} (h : Standing s t op p)
    (hgoing : Going s op p s₁ p' asks) : s.owing t = [] := by
  cases h with
  | starting _ h | reviewing _ _ h | failed _ h => exact h
  | writing | pruning | sending | dismissing | leaving | closingAll | finished => cases hgoing

/-- What a task owes that has gone on by itself is what it asks for. -/
theorem Went.owing_eq {s s' s₁ : System} {t : TaskId} {op : Operation} {p p' : Progress}
    {asks : List (ConnectionId × Errand)} (h : Went s s' t op p s₁ p' asks)
    (hstanding : Standing s t op p) : s'.owing t = asks := by
  rw [h.owing', ← h.owing, hstanding.owing_eq_nil h.going, List.append_nil]

/-- A task that goes on writes to those to whom it wrote, or begins to write. -/
theorem Went.reach {s s' s₁ : System} {t : TaskId} {op : Operation} {p p' : Progress}
    {asks : List (ConnectionId × Errand)} (h : Went s s' t op p s₁ p' asks)
    (hstanding : Standing s t op p) :
    s'.reach t = s.reach t ++ if p = .starting then s.targets op else [] := by
  unfold System.reach
  rw [h.owing_eq hstanding, hstanding.owing_eq_nil h.going, h.results, h.going.writes]
  simp

theorem targets_nodup {s : System} (h : s.Registered) (op : Operation) : (s.targets op).Nodup := by
  cases op with
  | broadcast hub payload except => exact (h.nodup hub).filter _
  | sendTo hub c payload => exact List.nodup_cons.mpr ⟨List.not_mem_nil, .nil⟩
  | register | unregister | closeAll | contains | count => exact .nil

theorem Standing.of_starting {s : System} {t : TaskId} {op : Operation}
    (h : Standing s t op .starting) : s.owing t = [] ∧ s.results t = [] := by
  cases h with
  | starting _ howing hresults => exact ⟨howing, hresults⟩

theorem Standing.reach_starting {s : System} {t : TaskId} {op : Operation}
    (h : Standing s t op .starting) : s.reach t = [] := by
  simp [reach, h.of_starting]

/-! ## What is kept -/

/-- What holds in every system that a run leads to. -/
structure Sound (s : System) : Prop where
  lawful : s.Lawful
  registered : s.Registered
  /-- what was not begun owes nothing and has written nothing -/
  unbegun : ∀ {t}, s.status t = none → s.owing t = [] ∧ s.results t = []
  standing : ∀ {t op p}, s.status t = some (op, p) → Standing s t op p
  /-- a task writes to a connection at most once -/
  once : ∀ t, (s.reach t).Nodup
  /-- a task writes nothing but the payload of its operation -/
  payload : ∀ {e}, e ∈ s.log → ∀ {payload}, e.occurrence.errand = .send payload →
    s.payload? e.task = some payload

theorem Standing.payload {s : System} {t : TaskId} {op : Operation} {p : Progress}
    (h : Standing s t op p) {c : ConnectionId} {payload : Octets}
    (howed : (c, .send payload) ∈ s.owing t) : op.payload? = some payload := by
  cases h with
  | writing except hr hshare =>
    have heq := (write_of_share hshare howed).2
    cases heq
    rfl
  | sending howing hr =>
    rw [howing, List.mem_singleton] at howed
    cases howed
    rfl
  | closingAll hub hleft howing => cases howing _ howed
  | starting _ howing | reviewing _ _ howing | pruning _ _ howing | failed _ howing
  | dismissing _ _ howing | leaving _ _ howing | finished howing =>
    rw [howing] at howed
    simp at howed

theorem Sound.payload_of_owing {s : System} (h : s.Sound) {t : TaskId} {c : ConnectionId}
    {payload : Octets} (howed : (c, .send payload) ∈ s.owing t) : s.payload? t = some payload := by
  cases hstatus : s.status t with
  | none =>
    rw [(h.unbegun hstatus).1] at howed
    cases howed
  | some x =>
    have hop := op?_of_status hstatus
    rw [payload?, hop]
    exact (h.standing hstatus).payload howed

theorem sound_init (timeouts : List Time.Duration) : (init timeouts).Sound where
  lawful := lawful_init timeouts
  registered := registered_init timeouts
  unbegun _ := ⟨rfl, rfl⟩
  standing h := by simp [status, init] at h
  once _ := .nil
  payload h := by cases h

theorem Move.payload? {s s' : System} {e : Event} (hl : s.Lawful) (h : s.Move e s') {t : TaskId}
    {payload : Octets} (hp : s.payload? t = some payload) : s'.payload? t = some payload := by
  obtain ⟨op, hop, hpayload⟩ := Option.bind_eq_some_iff.mp hp
  exact Option.bind_eq_some_iff.mpr ⟨op, (h.advance hl t).op? hop, hpayload⟩

/-- At most one line is noted, about an errand of the first in line. -/
theorem Move.log {s s' : System} {e : Event} (h : s.Move e s') :
    s'.log = s.log ∨ ∃ (c : ConnectionId) (turn : Turn) (o : Occurrence),
      (c, turn.errand) ∈ s.owing turn.task ∧ o.errand = turn.errand ∧
        s'.log = s.log ++ [⟨c, turn.task, o⟩] := by
  cases h with
  | go _ _ hgoing => exact .inl hgoing.log
  | start | ask | pass | rearrange => exact .inl rfl
  | passOver hconn hline | call hconn hline | answer _ _ hconn hline =>
    refine .inr ⟨_, _, _, mem_owing_of_line hconn ?_, rfl, rfl⟩
    rw [hline]
    exact .head _

section Keep

variable {s s' : System} {e : Event}

theorem reach_nodup_move (h : s.Sound) (hm : s.Move e s') (t : TaskId) : (s'.reach t).Nodup := by
  cases hm.advance h.lawful t with
  | rested _ howing hresults => exact (reach_congr howing hresults).nodup_iff.mpr (h.once t)
  | begun _ _ howing hresults =>
    exact (reach_congr (.of_eq howing) hresults).nodup_iff.mpr (h.once t)
  | went _ hwent =>
    rw [hwent.reach (h.standing hwent.status)]
    split
    · -- before its first step a task writes to no one, and it finds no one twice
      rename_i hstarting
      subst hstarting
      rw [(h.standing hwent.status).reach_starting]
      exact targets_nodup h.registered _
    · rw [List.append_nil]
      exact h.once t
  | ended result _ howing hresults =>
    exact (reach_ended howing hresults).nodup_iff.mpr (h.once t)

theorem unbegun_move (h : s.Sound) (hm : s.Move e s') {t : TaskId} (hnone : s'.status t = none) :
    s'.owing t = [] ∧ s'.results t = [] := by
  cases hm.advance h.lawful t with
  | rested hstatus howing hresults =>
    obtain ⟨hnil, hr⟩ := h.unbegun (hstatus.symm.trans hnone)
    exact ⟨(hnil ▸ howing).eq_nil, hresults.trans hr⟩
  | begun _ hstatus => rw [hnone] at hstatus; cases hstatus
  | went _ hwent => cases hnone.symm.trans hwent.status'
  | ended result hstatus howing =>
    have hnone₀ : s.status t = none := by
      rw [hnone] at hstatus
      exact Option.map_eq_none_iff.mp hstatus.symm
    rw [(h.unbegun hnone₀).1] at howing
    exact absurd howing.symm.eq_nil (List.cons_ne_nil _ _)

/-- **Every task stands where its progress is.** -/
theorem standing_move (h : s.Sound) (hm : s.Move e s') {t : TaskId} {op : Operation}
    {p : Progress} (hstatus' : s'.status t = some (op, p)) : Standing s' t op p := by
  have hkept (c : ConnectionId) : s.isShut c = true → s'.isShut c = true :=
    (hm.change c).isShut
  cases hm.advance h.lawful t with
  | rested hstatus howing hresults =>
    exact (h.standing (hstatus.symm.trans hstatus')).frame howing hresults hkept
  | begun hnone hstatus howing hresults =>
    obtain ⟨rfl, rfl⟩ := Prod.mk.inj (Option.some.inj (hstatus.symm.trans hstatus'))
    obtain ⟨hnil, hr⟩ := h.unbegun hnone
    exact .starting _ (howing.trans hnil) (hresults.trans hr)
  | went _ hwent =>
    obtain ⟨rfl, rfl⟩ := Prod.mk.inj (Option.some.inj (hwent.status'.symm.trans hstatus'))
    exact (h.standing hwent.status).go hwent hkept
  | ended result hstatus howing hresults hshut =>
    obtain ⟨p₀, hstatus₀, rfl⟩ := status_of_after hstatus hstatus'
    exact (h.standing hstatus₀).after howing hresults hshut (reach_nodup_move h hm t) hkept

/-- What is noted of a write is the payload of the task, since the task owed that write. -/
theorem payload_move (h : s.Sound) (hm : s.Move e s') {x : Entry} (hx : x ∈ s'.log)
    {payload : Octets} (hpayload : x.occurrence.errand = .send payload) :
    s'.payload? x.task = some payload := by
  obtain hlog | ⟨c, turn, o, howed, herrand, hlog⟩ := hm.log
  · exact hm.payload? h.lawful (h.payload (hlog ▸ hx) hpayload)
  · rw [hlog, List.mem_append, List.mem_singleton] at hx
    obtain hx | rfl := hx
    · exact hm.payload? h.lawful (h.payload hx hpayload)
    · have hturn : turn.errand = .send payload := herrand.symm.trans hpayload
      rw [hturn] at howed
      exact hm.payload? h.lawful (h.payload_of_owing howed)

/-- **Every event keeps what holds.** -/
theorem sound_move (h : s.Sound) (hm : s.Move e s') : s'.Sound where
  lawful := lawful_move h.lawful hm
  registered := registered_move h.registered hm
  unbegun := unbegun_move h hm
  standing := standing_move h hm
  once := reach_nodup_move h hm
  payload hx _ := payload_move h hm hx

end Keep

/-- The first step of an operation. -/
theorem Sound.went_of_act {s s' : System} {t : TaskId} {op : Operation} (h : s.Sound)
    (hstatus : s.status t = some (op, .starting)) (hstep : s.step (.act t) = some s') :
    ∃ s₁ p asks, Went s s' t op .starting s₁ p asks := by
  obtain ⟨task, htask, rfl, hprogress⟩ := status_eq_some_iff.mp hstatus
  have hasks : task.asks = [] := by
    have hunasked := (List.append_eq_nil_iff.mp (h.standing hstatus).of_starting.1).1
    simpa [unasked, htask] using hunasked
  cases move_of_act hstep with
  | ask htask' hasks' =>
    obtain rfl := Option.some.inj (htask.symm.trans htask')
    rw [hasks] at hasks'
    cases hasks'
  | go htask' _ hgoing =>
    obtain rfl := Option.some.inj (htask.symm.trans htask')
    exact ⟨_, _, _, hprogress ▸ hgoing.went htask hasks⟩
  | answer _ hreturn => simp at hreturn

theorem sound_reachable {timeouts : List Time.Duration} {s : System} (h : Reachable timeouts s) :
    s.Sound := by
  obtain ⟨es, hrun⟩ := h
  exact run_preserves sound_move (sound_init timeouts) hrun

/-! ## What is to be closed -/

/-- **A close that is owed stays owed until the connection is closed.** -/
theorem closing_move {s s' : System} {e : Event} (h : s.Sound) (hm : s.Move e s') {t : TaskId}
    {c : ConnectionId} (howed : (c, .close) ∈ s.owing t ∨ s.isClosed c = true) :
    (c, .close) ∈ s'.owing t ∨ s'.isClosed c = true := by
  obtain howed | hclosed := howed
  · cases hm.advance h.lawful t with
    | rested _ howing => exact .inl (howing.mem_iff.mpr howed)
    | begun _ _ howing => exact .inl (howing ▸ howed)
    | went _ hwent =>
      rw [(h.standing hwent.status).owing_eq_nil hwent.going] at howed
      cases howed
    | ended result _ howing _ hended =>
      obtain heq | hmem := List.mem_cons.mp (howing.mem_iff.mp howed)
      · obtain ⟨rfl, rfl⟩ := Prod.mk.inj heq
        exact .inr (isClosed_of_isShut (hended rfl))
      · exact .inl hmem
  · exact .inr ((hm.change c).isClosed hclosed)

theorem closing_run {s s' : System} {es : List Event} (h : s.Sound) (hrun : s.run es = some s')
    {t : TaskId} {c : ConnectionId} (howed : (c, .close) ∈ s.owing t) :
    (c, .close) ∈ s'.owing t ∨ s'.isClosed c = true :=
  (run_preserves
    (P := fun s' => s'.Sound ∧ ((c, .close) ∈ s'.owing t ∨ s'.isClosed c = true))
    (fun ⟨hs, howed⟩ hm => ⟨sound_move hs hm, closing_move hs hm howed⟩) ⟨h, .inl howed⟩ hrun).2

end System

end UserDirectory.Hub

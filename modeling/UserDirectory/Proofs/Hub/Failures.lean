import UserDirectory.Proofs.Hub.Ledger
import UserDirectory.Proofs.Hub.Membership

/-!
# What a failed write leaves behind

A write fails because the sink failed, because it was cut off at its deadline, or because the
connection is closed. In the first two cases the operation that wrote takes the connection out of
the registry and closes it before it returns; in the last someone else has done so. But "closed" can
also be what a sink that nobody has closed answers by itself, and to that answer the operation does
nothing: it leaves the connection where it is. `failed_write_removes` tells these cases apart.

That an operation has closed what failed is part of how it stands when it has ended
(`Sound.shut_of_lost`). What is passed over was closed before (`Conduct.answered_close`), and who is
closed is no member (`Kept.closed`).
-/

namespace UserDirectory.Hub

/-- At a connection that is closed, with no call under way, the close was answered. -/
theorem Conduct.answered_close {history : List (TaskId × Occurrence)}
    (h : Conduct history true none) : ∃ u result, (u, .answered .close result) ∈ history := by
  generalize hclosed : true = closed at h
  generalize hcall : (none : Option Turn) = call at h
  induction h with
  | nil => cases hclosed
  | called => cases hcall
  | @answered _ closed turn result h =>
    subst hclosed
    -- the call that was answered last is the one that closed the connection
    have hclose : turn.errand = .close := by simpa using h.closed_eq.symm
    exact ⟨turn.task, result, by simp [hclose]⟩
  | passedOver _ _ _ ih =>
    obtain ⟨u, result, hmem⟩ := ih rfl rfl
    exact ⟨u, result, List.mem_append_left _ hmem⟩

/-- What is passed over comes after the answer to the close. -/
theorem Conduct.answered_close_of_passedOver {history : List (TaskId × Occurrence)} {closed : Bool}
    {call : Option Turn} {t : TaskId} {errand : Errand} (h : Conduct history closed call)
    (hmem : (t, .passedOver errand) ∈ history) :
    ∃ u result, (u, .answered .close result) ∈ history := by
  induction h with
  | nil => cases hmem
  | called turn h =>
    obtain hmem | hmem := List.mem_append.mp hmem
    · cases h.closed_of_passedOver hmem
    · simp at hmem
  | answered _ _ ih =>
    obtain hmem | hmem := List.mem_append.mp hmem
    · obtain ⟨u, result, hmem⟩ := ih hmem
      exact ⟨u, result, List.mem_append_left _ hmem⟩
    · simp at hmem
  | passedOver _ _ h =>
    obtain ⟨u, result, hmem⟩ := h.answered_close
    exact ⟨u, result, List.mem_append_left _ hmem⟩

namespace System

variable {s s' : System} {e : Event} {hub : HubId} {c : ConnectionId} {t : TaskId}

/-! ## Who is gone -/

/-- A connection is no member, and its sink was told to close once, and that call has ended. -/
structure Gone (s : System) (hub : HubId) (c : ConnectionId) : Prop where
  not_mem : c ∉ s.members hub
  told : s.closes c = 1
  ended : ∃ u result, ⟨c, u, .answered .close result⟩ ∈ s.log

theorem Kept.gone_of_ended (hk : s.Kept hub) (hs : s.Sound) (hclosed : s.isClosed c = true)
    (hended : ∃ u result, (u, .answered .close result) ∈ s.history c) : s.Gone hub c where
  not_mem := (hk.closed hclosed).not_mem
  told := by rw [hs.closes_eq, if_pos hclosed]
  ended := by
    obtain ⟨u, result, hmem⟩ := hended
    exact ⟨u, result, mem_history_iff.mp hmem⟩

theorem Kept.gone_of_shut (hk : s.Kept hub) (hs : s.Sound) (hshut : s.isShut c = true) :
    s.Gone hub c := by
  obtain ⟨conn, hconn, hclosed, hidle⟩ := isShut_iff.mp hshut
  have hconduct := (hs.lawful.follows hconn).of_idle hidle
  rw [hclosed] at hconduct
  exact hk.gone_of_ended hs (isClosed_of_isShut hshut) hconduct.answered_close

theorem Kept.gone_of_passedOver (hk : s.Kept hub) (hs : s.Sound) {errand : Errand}
    (hmem : ⟨c, t, .passedOver errand⟩ ∈ s.log) : s.Gone hub c := by
  obtain ⟨call, hconduct⟩ := hs.conduct c
  have hnoted := mem_history_iff.mpr hmem
  exact hk.gone_of_ended hs (hconduct.closed_of_passedOver hnoted)
    (hconduct.answered_close_of_passedOver hnoted)

/-! ## Who closes -/

/-- A task has a reason to close a connection: it unregisters the connection, closes all members, or
has lost a write on it. -/
def MayClose (s : System) (t : TaskId) (c : ConnectionId) : Prop :=
  (∃ hub, s.op? t = some (.unregister hub c)) ∨ (∃ hub, s.op? t = some (.closeAll hub)) ∨
    Lost (s.results t) c

theorem Advance.mayClose (h : Advance s e s' t) (hmay : s.MayClose t c) : s'.MayClose t c := by
  obtain ⟨hub, hop⟩ | ⟨hub, hop⟩ | ⟨reason, hmem⟩ := hmay
  · exact .inl ⟨hub, h.op? hop⟩
  · exact .inr (.inl ⟨hub, h.op? hop⟩)
  · refine .inr (.inr ⟨reason, ?_⟩)
    cases h with
    | rested _ _ hresults | begun _ _ _ hresults => exact hresults ▸ hmem
    | went _ hwent => exact hwent.results ▸ hmem
    | ended _ _ _ hresults => exact hresults ▸ List.mem_append_left _ hmem

/-- A task that decides on a close has a reason. -/
theorem Went.mayClose {op : Operation} {p p' : Progress} {s₁ : System}
    {asks : List (ConnectionId × Errand)} (h : Went s s' t op p s₁ p' asks)
    (hstanding : Standing s t op p) (hask : (c, .close) ∈ asks) : s.MayClose t c := by
  have hop := op?_of_status h.status
  cases h.going with
  | unregister hub d =>
    obtain rfl : c = d := by simpa using hask
    exact .inl ⟨hub, hop⟩
  | closeAll hub => exact .inr (.inl ⟨hub, hop⟩)
  | prune _ _ d reason =>
    obtain rfl : c = d := by simpa using hask
    cases hstanding with
    | reviewing _ _ _ hsub => exact .inr (.inr ⟨reason, hsub _ List.mem_cons_self⟩)
  | dismiss _ _ d =>
    obtain rfl : c = d := by simpa using hask
    cases hstanding with
    | failed _ _ hresults => exact .inr (.inr ⟨_, hresults ▸ List.mem_singleton_self _⟩)
  | broadcast =>
    obtain ⟨d, -, heq⟩ := List.mem_map.mp hask
    cases heq
  | sendTo => simp at hask
  | register | broadcastNone | closeNone | contains | count | reviewed | reviewOk
  | reviewClosed => cases hask

/-- Every close that is owed has a reason, and so had every one of which something came. -/
structure Reasoned (s : System) : Prop where
  owed : ∀ {t c}, (c, .close) ∈ s.owing t → s.MayClose t c
  noted : ∀ {x}, x ∈ s.log → x.occurrence.errand = .close → s.MayClose x.task x.connection

theorem reasoned_init (timeouts : List Time.Duration) : (init timeouts).Reasoned where
  owed h := by cases h
  noted h := by cases h

theorem reasoned_move (h : s.Sound ∧ s.Reasoned) (hm : s.Move e s') :
    s'.Sound ∧ s'.Reasoned := by
  obtain ⟨hs, hr⟩ := h
  refine ⟨sound_move hs hm, fun {t c} howed => ?_, fun {x} hx herrand => ?_⟩
  · have hadvance := hm.advance hs.lawful t
    refine hadvance.mayClose ?_
    cases hadvance with
    | rested _ howing => exact hr.owed (howing.mem_iff.mp howed)
    | begun _ _ howing => exact hr.owed (howing ▸ howed)
    | went _ hwent =>
      rw [hwent.owing_eq (hs.standing hwent.status)] at howed
      exact hwent.mayClose (hs.standing hwent.status) howed
    | ended _ _ howing => exact hr.owed (howing.mem_iff.mpr (List.mem_cons_of_mem _ howed))
  · refine (hm.advance hs.lawful x.task).mayClose ?_
    obtain hlog | ⟨c, turn, o, howed, heq, hlog⟩ := hm.log
    · exact hr.noted (hlog ▸ hx) herrand
    · rw [hlog, List.mem_append, List.mem_singleton] at hx
      obtain hx | rfl := hx
      · exact hr.noted hx herrand
      · -- what is noted now was owed before
        exact hr.owed (heq.symm.trans herrand ▸ howed)

theorem reasoned_reachable {timeouts : List Time.Duration} (h : Reachable timeouts s) :
    s.Reasoned := by
  obtain ⟨es, hrun⟩ := h
  exact (run_preserves reasoned_move ⟨sound_init timeouts, reasoned_init timeouts⟩ hrun).2

/-- A task that wrote to a connection without losing the write does not close it. -/
theorem Reasoned.spared (h : s.Reasoned) (hs : s.Sound) {payload : Octets}
    (hnoted : ⟨c, t, .answered (.send payload) (.failed .closed)⟩ ∈ s.log) {o : Occurrence}
    (ho : ⟨c, t, o⟩ ∈ s.log) : o.errand ≠ .close := by
  intro hclose
  have hresult : (c, .failed .closed) ∈ s.results t :=
    mem_results_iff.mpr ⟨_, mem_history_iff.mpr hnoted, rfl⟩
  have hpayload : s.payload? t = some payload := hs.payload hnoted rfl
  obtain ⟨hub, hop⟩ | ⟨hub, hop⟩ | ⟨reason, hlost⟩ := h.noted ho hclose
  · rw [payload?, hop] at hpayload
    cases hpayload
  · rw [payload?, hop] at hpayload
    cases hpayload
  · -- it writes to each connection once, so both are the one result
    have hnodup : ((s.results t).map Prod.fst).Nodup := (List.nodup_append.mp (hs.once t)).1
    have heq := List.inj_on_of_nodup_map hnodup hresult hlost rfl
    cases heq

/-! ## Failed writes -/

/-- What came of a write that failed: the connection is gone, or the sink itself has answered that
it is closed, and the task left the connection alone. -/
theorem Kept.of_failed (hk : s.Kept hub) (hs : s.Sound) (hr : s.Reasoned) {outcome : Outcome}
    (houtcome : s.outcome? t = some outcome) {o : Occurrence} {why : Failure}
    (hnoted : ⟨c, t, o⟩ ∈ s.log) (hfailed : o.result? = some (.failed why)) :
    s.Gone hub c ∨ why = .closed ∧ (∃ payload, o = .answered (.send payload) (.failed .closed)) ∧
      ∀ o', ⟨c, t, o'⟩ ∈ s.log → o'.errand ≠ .close := by
  match o, why, hfailed with
  | .answered (.send payload) _, .write reason, rfl =>
    have hlost : Lost (s.results t) c :=
      ⟨reason, mem_results_iff.mpr ⟨_, mem_history_iff.mpr hnoted, rfl⟩⟩
    exact .inl (hk.gone_of_shut hs (hs.shut_of_lost houtcome hlost))
  | .answered (.send payload) _, .closed, rfl =>
    exact .inr ⟨rfl, ⟨payload, rfl⟩, fun _ => hr.spared hs hnoted⟩
  | .passedOver (.send payload), _, rfl => exact .inl (hk.gone_of_passedOver hs hnoted)

/-- The failure of a send was noted. -/
theorem Sound.noted_of_sendTo (hs : s.Sound) {payload : Octets} {result : Sent}
    (hstatus : s.status t = some (.sendTo hub c payload, .finished (.sent result))) :
    ∃ o, ⟨c, t, o⟩ ∈ s.log ∧ o.result? = some result := by
  cases hs.standing hstatus with
  | finished _ hsettled =>
    cases hsettled with
    | sendTo _ _ hresults =>
      obtain ⟨o, ho, hresult⟩ := mem_results_iff.mp (hresults ▸ List.mem_singleton_self _)
      exact ⟨o, mem_history_iff.mp ho, hresult⟩

/-- **Who failed is gone, unless the sink said of itself that it is closed.** As long as the
connections of a registry are given to its own operations alone: when an operation has returned,
each connection on which a write of it failed is no member any more, and its sink was closed. The
one exception is a sink that answered the write with "closed" while nobody had closed it; the
operation does not close such a connection. The same goes for the failure that a send returns. -/
theorem failed_write_removes {timeouts : List Time.Duration} {es : List Event}
    (hhub : hub < timeouts.length) (hkeeps : (init timeouts).keepsHandles hub es = true)
    (hrun : (init timeouts).run es = some s) :
    (∀ t c o why, (s.outcome? t).isSome → ⟨c, t, o⟩ ∈ s.log → o.result? = some (.failed why) →
      s.Gone hub c ∨ why = .closed ∧ (∃ payload, o = .answered (.send payload) (.failed .closed)) ∧
        ∀ o', ⟨c, t, o'⟩ ∈ s.log → o'.errand ≠ .close) ∧
    ∀ t c payload why,
      s.status t = some (.sendTo hub c payload, .finished (.sent (.failed why))) →
      s.Gone hub c ∨ why = .closed ∧ ⟨c, t, .answered (.send payload) (.failed .closed)⟩ ∈ s.log ∧
        ∀ o', ⟨c, t, o'⟩ ∈ s.log → o'.errand ≠ .close := by
  have hs : s.Sound := sound_reachable ⟨es, hrun⟩
  have hr : s.Reasoned := reasoned_reachable ⟨es, hrun⟩
  have hk : s.Kept hub := kept_run hhub hkeeps hrun
  refine ⟨fun t c o why hreturned hnoted hfailed => ?_, fun t c payload why hstatus => ?_⟩
  · obtain ⟨outcome, houtcome⟩ := Option.isSome_iff_exists.mp hreturned
    exact hk.of_failed hs hr houtcome hnoted hfailed
  · obtain ⟨o, hnoted, hfailed⟩ := hs.noted_of_sendTo hstatus
    have houtcome := outcome?_eq_some_iff.mpr ⟨_, hstatus⟩
    refine (hk.of_failed hs hr houtcome hnoted hfailed).imp_right ?_
    rintro ⟨rfl, ⟨payload', rfl⟩, hspared⟩
    -- the frame that was written is the one that the operation was given
    have hpayload := hs.payload hnoted rfl
    rw [payload?, op?_of_status hstatus] at hpayload
    obtain rfl := Option.some.inj hpayload
    exact ⟨rfl, hnoted, hspared⟩

/-- Four connections are registered. A send to the first is cut off; of the writes of a broadcast to
the others one fails, one comes too late, since the connection is being unregistered, and the last
sink says that it is closed. -/
def failures : List Event :=
  [.start (.register 0), .act 0, .start (.register 0), .act 1, .start (.register 0), .act 2,
    .start (.register 0), .act 3,
    .start (.sendTo 0 0 [1]), .act 4, .act 4, .enter 0, .pass 50000000, .expire 0, .act 4, .act 4,
    .enter 0, .finish 0 .ok,
    .start (.broadcast 0 [2] none), .act 5,
    .start (.unregister 0 2), .act 6, .act 6, .enter 2, .finish 2 .ok,
    .act 5, .act 5, .act 5, .enter 1, .finish 1 (.failed (.write "broken pipe")), .enter 2,
    .enter 3, .finish 3 (.failed .closed), .act 5, .act 5, .enter 1, .finish 1 .ok, .act 5, .act 5,
    .act 5]

/-- The first three are gone, and the last is not. -/
theorem failed_write_removes_three : ∃ s : System,
    (init [.ofMillis 50]).run failures = some s ∧
    (init [.ofMillis 50]).keepsHandles 0 failures = true ∧
    s.outcome? 4 = some (.sent (.failed (cutOff (.ofMillis 50)))) ∧
    s.outcome? 5 = some (.broadcast 0) ∧ s.Gone 0 0 ∧ s.Gone 0 1 ∧ s.Gone 0 2 ∧
    s.members 0 = [3] ∧ s.closes 3 = 0 := by
  obtain ⟨hwrites, hsends⟩ :=
    @failed_write_removes _ 0 [.ofMillis 50] failures (by decide) (by decide) rfl
  refine ⟨_, rfl, by decide, rfl, rfl, ?_, ?_, ?_, rfl, by decide⟩
  · exact (hsends 4 0 [1] _ rfl).resolve_right fun h => by cases h.1
  · exact (hwrites 5 1 (.answered (.send [2]) (.failed (.write "broken pipe"))) _ rfl (by decide)
      rfl).resolve_right fun h => by cases h.1
  · refine (hwrites 5 2 (.passedOver (.send [2])) _ rfl (by decide) rfl).resolve_right ?_
    rintro ⟨-, ⟨payload, heq⟩, -⟩
    cases heq

/-- A sink that nobody has closed answers a send and a broadcast with "closed". -/
def selfClosed : List Event :=
  [.start (.register 0), .act 0, .start (.sendTo 0 0 [1]), .act 1, .act 1, .enter 0,
    .finish 0 (.failed .closed), .start (.broadcast 0 [2] none), .act 2, .act 2, .enter 0,
    .finish 0 (.failed .closed), .act 2, .act 2]

/-- **Not every connection on which a write failed is gone**, whether a send has failed or a write
of a broadcast. -/
theorem member_after_failed_write :
    (¬ ∀ {timeouts : List Time.Duration} {hub : HubId} {es : List Event} {s : System},
      hub < timeouts.length → (init timeouts).keepsHandles hub es = true →
      (init timeouts).run es = some s → ∀ t c payload why,
      s.status t = some (.sendTo hub c payload, .finished (.sent (.failed why))) → s.Gone hub c) ∧
    ¬ ∀ {timeouts : List Time.Duration} {hub : HubId} {es : List Event} {s : System},
      hub < timeouts.length → (init timeouts).keepsHandles hub es = true →
      (init timeouts).run es = some s → ∀ t delivered c payload why,
      s.outcome? t = some (.broadcast delivered) →
      ⟨c, t, .answered (.send payload) (.failed why)⟩ ∈ s.log → s.Gone hub c := by
  constructor
  · intro hgone
    exact (@hgone [.ofMillis 50] 0 selfClosed _ (by decide) (by decide) rfl 1 0 [1] .closed
      rfl).not_mem (by decide)
  · intro hgone
    exact (@hgone [.ofMillis 50] 0 selfClosed _ (by decide) (by decide) rfl 2 0 0 [2] .closed
      rfl (by decide)).not_mem (by decide)

end System

end UserDirectory.Hub

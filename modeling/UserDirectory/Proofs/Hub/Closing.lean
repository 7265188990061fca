import UserDirectory.Proofs.Hub.Soundness

/-!
# After a connection is closed, and after a write to it has failed

An operation that has to close a connection has closed it when it returns, and to a closed
connection nothing is written (`run_of_closed`). So no frame reaches a connection once its
unregistration has returned, or the close of all members that found it there, or a send that failed.

A write that fails does not close the connection at once. The task that made it passes the lock on,
and asks for it again to close; whoever stands in line before it then still gets in. That is all who
do: `Ahead` follows the line up to the close, and what is written in the meantime is written by
those before it, in their order.
-/

namespace UserDirectory.Hub

namespace System

/-! ## What has been closed -/

theorem Sound.closed_of_unregistered {s : System} (h : s.Sound) {t : TaskId} {hub : HubId}
    {c : ConnectionId} {outcome : Outcome}
    (hstatus : s.status t = some (.unregister hub c, .finished outcome)) :
    s.isClosed c = true := by
  cases h.standing hstatus with
  | finished _ hsettled =>
    cases hsettled with
    | unregister _ _ _ hshut => exact isClosed_of_isShut hshut

/-- A task whose write on a connection failed returns when closing the connection is over. -/
theorem Sound.shut_of_lost {s : System} (h : s.Sound) {t : TaskId} {c : ConnectionId}
    {outcome : Outcome} (houtcome : s.outcome? t = some outcome) (hlost : Lost (s.results t) c) :
    s.isShut c = true := by
  obtain ⟨op, hstatus⟩ := outcome?_eq_some_iff.mp houtcome
  have hnone (hr : s.results t = []) : s.isShut c = true := by
    obtain ⟨reason, hmem⟩ := hlost
    rw [hr] at hmem
    cases hmem
  cases h.standing hstatus with
  | finished _ hsettled =>
    cases hsettled with
    | broadcast _ _ _ _ hshut => exact hshut c hlost
    | sendTo _ _ hr hshut =>
      obtain ⟨reason, hmem⟩ := hlost
      rw [hr, List.mem_singleton] at hmem
      cases hmem
      exact hshut reason rfl
    | register _ _ hr | unregister _ _ hr | closeAll _ hr | contains _ _ _ hr | count _ _ hr =>
      exact hnone hr

theorem Sound.closed_of_lost {s : System} (h : s.Sound) {t : TaskId} {c : ConnectionId}
    {outcome : Outcome} (houtcome : s.outcome? t = some outcome) (hlost : Lost (s.results t) c) :
    s.isClosed c = true := isClosed_of_isShut (h.shut_of_lost houtcome hlost)

theorem Sound.lost_of_sendTo {s : System} (h : s.Sound) {t : TaskId} {hub : HubId}
    {c : ConnectionId} {payload : Octets} {reason : String}
    (hstatus : s.status t =
      some (.sendTo hub c payload, .finished (.sent (.failed (.write reason))))) :
    Lost (s.results t) c := by
  cases h.standing hstatus with
  | finished _ hsettled =>
    cases hsettled with
    | sendTo _ _ hr => exact ⟨reason, by rw [hr]; exact .head _⟩

/-- A close of all members has closed those that it found when it returns. -/
theorem Sound.closed_of_drained {s s' : System} {es : List Event} (h : s.Sound) {t : TaskId}
    {hub : HubId} {c : ConnectionId} {outcome : Outcome}
    (hstarting : s.status t = some (.closeAll hub, .starting)) (hc : c ∈ s.members hub)
    (hrun : s.run (.act t :: es) = some s')
    (hreturned : s'.status t = some (.closeAll hub, .finished outcome)) :
    s'.isClosed c = true := by
  obtain ⟨s₁, hstep, hrest⟩ := Option.bind_eq_some_iff.mp hrun
  have h₁ : s₁.Sound := sound_move h (move_of_step hstep)
  obtain ⟨s₂, p, asks, hwent⟩ := h.went_of_act hstarting hstep
  have howed : (c, .close) ∈ s₁.owing t := by
    rw [hwent.owing_eq (h.standing hstarting)]
    cases hwent.going with
    | closeNone hnone =>
      rw [hnone] at hc
      cases hc
    | closeAll => exact List.mem_map.mpr ⟨c, hc, rfl⟩
  have h' : s'.Sound := run_preserves sound_move h₁ hrest
  refine (closing_run h₁ hrest howed).resolve_left fun howed' => ?_
  cases h'.standing hreturned with
  | finished hnone =>
    rw [hnone] at howed'
    cases howed'

/-- **No write after a close.** At every connection the calls of the sink come one after another,
writes first and then at most one close, after which the sink is not called again. And no frame is
handed to a sink once an unregistration of the connection has returned, or a close of all members
that found it there, or a send to it with a failed write; on whichever registry that was. -/
theorem no_write_after_close {timeouts : List Time.Duration} {s₀ s₁ s₂ : System}
    {es₁ es₂ : List Event} (h₀ : Reachable timeouts s₀) (h₁ : s₀.run es₁ = some s₁)
    (h₂ : s₁.run es₂ = some s₂) (c : ConnectionId) :
    Orderly (s₂.history c) ∧
    (∀ t hub outcome, s₁.status t = some (.unregister hub c, .finished outcome) →
      s₂.sends c = s₁.sends c) ∧
    (∀ t hub outcome es, s₀.status t = some (.closeAll hub, .starting) → c ∈ s₀.members hub →
      es₁ = .act t :: es → s₁.status t = some (.closeAll hub, .finished outcome) →
      s₂.sends c = s₁.sends c) ∧
    (∀ t hub payload reason,
      s₁.status t = some (.sendTo hub c payload, .finished (.sent (.failed (.write reason)))) →
      s₂.sends c = s₁.sends c) := by
  have hs₀ : s₀.Sound := sound_reachable h₀
  have hs₁ : s₁.Sound := sound_reachable (h₀.run h₁)
  have hs₂ : s₂.Sound := sound_reachable ((h₀.run h₁).run h₂)
  refine ⟨hs₂.lawful.orderly c, ?_, ?_, ?_⟩
  · intro t hub outcome hstatus
    exact (run_of_closed (hs₁.closed_of_unregistered hstatus) h₂).2
  · intro t hub outcome es hstarting hc hes hreturned
    subst hes
    exact (run_of_closed (hs₀.closed_of_drained hstarting hc h₁ hreturned) h₂).2
  · intro t hub payload reason hstatus
    have houtcome := outcome?_eq_some_iff.mpr ⟨_, hstatus⟩
    exact (run_of_closed (hs₁.closed_of_lost houtcome (hs₁.lost_of_sendTo hstatus)) h₂).2

/-- Three connections are registered; the first is unregistered, a send to the second fails, and the
close of all members is about to begin. -/
def partings : List Event :=
  [.start (.register 0), .act 0, .start (.register 0), .act 1, .start (.register 0), .act 2,
    .start (.unregister 0 0), .act 3, .act 3, .enter 0, .finish 0 .ok,
    .start (.sendTo 0 1 [1]), .act 4, .act 4, .enter 1, .finish 1 (.failed (.write "broken pipe")),
    .act 4, .act 4, .enter 1, .finish 1 .ok,
    .start (.closeAll 0)]

/-- The close of all members, which finds the third connection alone. -/
def closingOfAll : List Event := [.act 5, .act 5, .enter 2, .finish 2 .ok]

/-- A send to each of the three connections. -/
def lateSends : List Event :=
  [.start (.sendTo 0 0 [2]), .act 6, .act 6, .enter 0, .start (.sendTo 0 1 [2]), .act 7, .act 7,
    .enter 1, .start (.sendTo 0 2 [2]), .act 8, .act 8, .enter 2]

theorem no_write_after_three_closes : ∃ s₀ s₁ s₂ : System, Reachable [.ofMillis 50] s₀ ∧
    s₀.run closingOfAll = some s₁ ∧ s₁.run lateSends = some s₂ ∧
    s₁.status 3 = some (.unregister 0 0, .finished (.unregistered true)) ∧
    s₁.status 4 = some (.sendTo 0 1 [1], .finished (.sent (.failed (.write "broken pipe")))) ∧
    (s₀.status 5 = some (.closeAll 0, .starting) ∧ 2 ∈ s₀.members 0 ∧
      s₁.status 5 = some (.closeAll 0, .finished .closedAll)) ∧
    Orderly (s₂.history 0) ∧ Orderly (s₂.history 1) ∧ Orderly (s₂.history 2) ∧
    s₂.sends 0 = s₁.sends 0 ∧ s₂.sends 1 = s₁.sends 1 ∧ s₂.sends 2 = s₁.sends 2 := by
  have h (c : ConnectionId) :=
    @no_write_after_close [.ofMillis 50] _ _ _ closingOfAll lateSends ⟨partings, rfl⟩ rfl rfl c
  exact ⟨_, _, _, ⟨partings, rfl⟩, rfl, rfl, rfl, rfl, ⟨rfl, by decide, rfl⟩,
    (h 0).1, (h 1).1, (h 2).1, (h 0).2.1 3 0 _ rfl, (h 1).2.2.2 4 0 [1] "broken pipe" rfl,
    (h 2).2.2.1 5 0 _ _ rfl (by decide) rfl rfl⟩

/-! ## Who still gets in after a failed write -/

/-- The place in a line of one who writes. -/
def writer (x : TaskId × Octets) : Turn := ⟨x.1, .send x.2⟩

/-- Since the line before the close of the task `t` was `before`, the frames `late` were handed to
the sink, and the connection is closed, or else the rest of those before it are still in line. -/
inductive Ahead (s : System) (c : ConnectionId) (t : TaskId) (before : List Turn)
    (late : List (TaskId × Octets)) : Prop
  | closed (hclosed : s.isClosed c = true) (hlate : (late.map writer).Sublist before)
  | idle {conn : Connection} {waiting after : List Turn} (hconn : s.connections[c]? = some conn)
      (hline : conn.line = waiting ++ ⟨t, .close⟩ :: after) (hidle : conn.deadline = none)
      (hlate : (late.map writer ++ waiting).Sublist before)
  | busy {conn : Connection} {turn : Turn} {waiting after : List Turn} {deadline : Nat}
      (hconn : s.connections[c]? = some conn)
      (hline : conn.line = turn :: (waiting ++ ⟨t, .close⟩ :: after))
      (hbusy : conn.deadline = some deadline)
      (hlate : (late.map writer ++ waiting).Sublist before)

section Ahead

variable {s s' : System} {c : ConnectionId} {t : TaskId} {before after : List Turn}
  {late : List (TaskId × Octets)} {conn : Connection}

theorem Ahead.of_line (hl : s.Lawful) (hconn : s.connections[c]? = some conn)
    (hline : conn.line = before ++ ⟨t, .close⟩ :: after) : Ahead s c t before [] := by
  cases hdeadline : conn.deadline with
  | none => exact .idle hconn hline hdeadline (.refl _)
  | some deadline =>
    cases before with
    | nil =>
      -- the close itself is under way
      refine .closed ?_ (.refl _)
      rw [isClosed_of_getElem? hconn, ((hl.follows hconn).of_busy hdeadline hline).closed_eq]
      rfl
    | cons turn waiting => exact .busy hconn hline hdeadline (List.sublist_cons_self turn waiting)

theorem Ahead.next {waiting rest : List Turn}
    (hconn' : s'.connections[c]? = some { conn with line := rest, deadline := none })
    (hrest : rest = waiting ++ ⟨t, .close⟩ :: after)
    (hlate : (late.map writer ++ waiting).Sublist before) : Ahead s' c t before late :=
  .idle hconn' hrest rfl hlate

/-- When the next in line is let in, it is one of those before the close, or closes itself. -/
theorem Ahead.let_in {turn : Turn} {waiting rest : List Turn} {deadline : Nat}
    (hline : turn :: rest = waiting ++ ⟨t, .close⟩ :: after)
    (hconn' : s'.connections[c]? = some
      { conn with
        line := turn :: rest, closed := turn.errand == .close, deadline := some deadline })
    (hlog : s'.history c = s.history c ++ [(turn.task, .called turn.errand)])
    (hlate : (late.map writer ++ waiting).Sublist before) :
    ∃ new, s'.sends c = s.sends c ++ new ∧ Ahead s' c t before (late ++ new) := by
  cases herrand : turn.errand with
  | close =>
    refine ⟨[], ?_, .closed ?_ ?_⟩
    · rw [List.append_nil]
      exact sends_append hlog (by rw [herrand]; rfl)
    · rw [isClosed_of_getElem? hconn', herrand]
      rfl
    · rw [List.append_nil]
      exact (List.sublist_append_left _ _).trans hlate
  | send payload =>
    cases waiting with
    | nil =>
      obtain ⟨rfl, -⟩ := List.cons.inj hline
      cases herrand
    | cons first waiting =>
      obtain ⟨rfl, hrest⟩ := List.cons.inj hline
      refine ⟨[(turn.task, payload)], ?_, .busy hconn' (congrArg _ hrest) rfl ?_⟩
      · simp [sends, hlog, herrand, Occurrence.frame?]
      · have hturn : writer (turn.task, payload) = turn := by
          rw [writer, ← herrand]
        rw [List.map_append, List.append_assoc, List.map_singleton, hturn]
        exact hlate

/-- **An event lets in at most the next of those before the close.** -/
theorem Ahead.move {e : Event} (hm : s.Move e s') (h : Ahead s c t before late) :
    ∃ new, s'.sends c = s.sends c ++ new ∧ Ahead s' c t before (late ++ new) := by
  have hrests (hsends : s'.sends c = s.sends c) (h' : Ahead s' c t before late) :
      ∃ new, s'.sends c = s.sends c ++ new ∧ Ahead s' c t before (late ++ new) :=
    ⟨[], by rw [hsends, List.append_nil], by rwa [List.append_nil]⟩
  cases h with
  | closed hclosed hlate =>
    have hchange := hm.change c
    exact hrests (hchange.sends_of_closed hclosed) (.closed (hchange.isClosed hclosed) hlate)
  | @idle conn waiting after hconn hline hidle hlate =>
    cases hm.change c with
    | untouched hconn' hlog =>
      exact hrests (sends_congr hlog) (.idle (hconn'.trans hconn) hline hidle hlate)
    | born hnone => exact absurd (List.getElem?_eq_some_iff.mp hconn).1 (by omega)
    | joined turn hconn₁ hconn' hlog =>
      obtain rfl := Option.some.inj (hconn.symm.trans hconn₁)
      have hline' : conn.line ++ [turn] = waiting ++ ⟨t, .close⟩ :: (after ++ [turn]) := by
        rw [hline, List.append_assoc, List.cons_append]
      exact hrests (sends_congr hlog) (.idle hconn' hline' hidle hlate)
    | passedOver hconn₁ hline₁ hidle₁ hclosed hconn' hlog =>
      refine hrests (sends_append hlog rfl) (.closed ?_ ?_)
      · rw [isClosed_of_getElem? hconn', hclosed]
      · exact (List.sublist_append_left _ _).trans hlate
    | called hconn₁ hline₁ hidle₁ hopen hconn' hlog =>
      obtain rfl := Option.some.inj (hconn.symm.trans hconn₁)
      rw [hline₁] at hconn'
      exact Ahead.let_in (hline₁.symm.trans hline) hconn' hlog hlate
    | answered result hconn₁ hline₁ hbusy =>
      obtain rfl := Option.some.inj (hconn.symm.trans hconn₁)
      rw [hidle] at hbusy
      cases hbusy
  | @busy conn first waiting after deadline hconn hline hbusy hlate =>
    cases hm.change c with
    | untouched hconn' hlog =>
      exact hrests (sends_congr hlog) (.busy (hconn'.trans hconn) hline hbusy hlate)
    | born hnone => exact absurd (List.getElem?_eq_some_iff.mp hconn).1 (by omega)
    | joined turn hconn₁ hconn' hlog =>
      obtain rfl := Option.some.inj (hconn.symm.trans hconn₁)
      have hline' : conn.line ++ [turn] =
          first :: (waiting ++ ⟨t, .close⟩ :: (after ++ [turn])) := by
        rw [hline, List.cons_append, List.append_assoc, List.cons_append]
      exact hrests (sends_congr hlog) (.busy hconn' hline' hbusy hlate)
    | passedOver hconn₁ _ hidle | called hconn₁ _ hidle =>
      obtain rfl := Option.some.inj (hconn.symm.trans hconn₁)
      rw [hidle] at hbusy
      cases hbusy
    | answered result hconn₁ hline₁ hbusy₁ hconn' hlog =>
      obtain rfl := Option.some.inj (hconn.symm.trans hconn₁)
      obtain ⟨-, hrest⟩ := List.cons.inj (hline₁.symm.trans hline)
      exact hrests (sends_append hlog rfl) (.next hconn' hrest hlate)

theorem Ahead.run {es : List Event} (h : Ahead s c t before late) (hrun : s.run es = some s') :
    ∃ new, s'.sends c = s.sends c ++ new ∧ Ahead s' c t before (late ++ new) := by
  refine run_preserves
    (P := fun s' => ∃ new, s'.sends c = s.sends c ++ new ∧ Ahead s' c t before (late ++ new))
    ?_ ⟨[], (List.append_nil _).symm, by rwa [List.append_nil]⟩ hrun
  rintro s₁ e s₂ ⟨new, hsends, hahead⟩ hm
  obtain ⟨new', hsends', hahead'⟩ := hahead.move hm
  rw [hsends, List.append_assoc] at hsends'
  rw [List.append_assoc] at hahead'
  exact ⟨new ++ new', hsends', hahead'⟩

theorem Ahead.late_sublist (h : Ahead s c t before late) : (late.map writer).Sublist before := by
  cases h with
  | closed _ hlate => exact hlate
  | idle _ _ _ hlate | busy _ _ _ hlate => exact (List.sublist_append_left _ _).trans hlate

end Ahead

/-- **After a failed write only those get in who stood before the close in line.** Once a write of a
task on a connection has failed or was cut off, the connection is closed when the task returns, and
from then on nothing is written to it. Once the task stands in line to close it, what is written to
it is written by those who stand before that place, each at most once and in their order. -/
theorem failed_write_closes {timeouts : List Time.Duration} {s₁ s₂ : System} {es : List Event}
    {t : TaskId} {c : ConnectionId} {payload : Octets} {reason : String}
    (h₁ : Reachable timeouts s₁) (h₂ : s₁.run es = some s₂)
    (hfailed : ⟨c, t, .answered (.send payload) (.failed (.write reason))⟩ ∈ s₁.log) :
    (∀ outcome, s₁.outcome? t = some outcome →
      s₁.isClosed c = true ∧ s₂.sends c = s₁.sends c) ∧
    (∀ conn before after, s₁.connections[c]? = some conn →
      conn.line = before ++ ⟨t, .close⟩ :: after →
      ∃ late, s₂.sends c = s₁.sends c ++ late ∧ (late.map writer).Sublist before) := by
  have hs₁ : s₁.Sound := sound_reachable h₁
  have hlost : Lost (s₁.results t) c :=
    ⟨reason, List.mem_filterMap.mpr ⟨_, hfailed, by simp [Occurrence.result?]⟩⟩
  refine ⟨fun outcome houtcome => ?_, fun conn before after hconn hline => ?_⟩
  · have hclosed := hs₁.closed_of_lost houtcome hlost
    exact ⟨hclosed, (run_of_closed hclosed h₂).2⟩
  · obtain ⟨late, hsends, hahead⟩ := (Ahead.of_line hs₁.lawful hconn hline).run h₂
    exact ⟨late, hsends, hahead.late_sublist⟩

/-- A write fails, and before the task that made it asks for the lock again to close, another task
asks for it to write. -/
def overtaken : List Event :=
  [.start (.register 0), .act 0, .start (.sendTo 0 0 [1]), .act 1, .act 1, .enter 0,
    .start (.sendTo 0 0 [2]), .act 2, .act 2, .finish 0 (.failed (.write "broken pipe")),
    .act 1, .act 1]

/-- The other task gets in, and then the connection is closed. -/
def overtaking : List Event := [.enter 0, .finish 0 .ok, .enter 0, .finish 0 .ok]

/-- A third task comes too late. -/
def tooLate : List Event := [.start (.sendTo 0 0 [3]), .act 3, .act 3, .enter 0]

theorem failed_write_closes_overtaken : ∃ s₁ s₂ s₃ : System,
    Reachable [.ofMillis 50] s₁ ∧ s₁.run overtaking = some s₂ ∧ s₂.run tooLate = some s₃ ∧
    ⟨0, 1, .answered (.send [1]) (.failed (.write "broken pipe"))⟩ ∈ s₁.log ∧
    s₂.outcome? 1 = some (.sent (.failed (.write "broken pipe"))) ∧
    (∃ late, s₂.sends 0 = s₁.sends 0 ++ late ∧ (late.map writer).Sublist [⟨2, .send [2]⟩]) ∧
    s₂.isClosed 0 = true ∧ s₃.sends 0 = s₂.sends 0 := by
  have hqueue := (@failed_write_closes [.ofMillis 50] _ _ overtaking 1 0 [1] "broken pipe"
    ⟨overtaken, rfl⟩ rfl (by decide)).2
  have hreturned := (@failed_write_closes [.ofMillis 50] _ _ tooLate 1 0 [1] "broken pipe"
    ⟨overtaken ++ overtaking, rfl⟩ rfl (by decide)).1
  obtain ⟨hclosed, hsends⟩ := hreturned _ rfl
  exact ⟨_, _, _, ⟨overtaken, rfl⟩, rfl, rfl, by decide, rfl,
    hqueue _ [⟨2, .send [2]⟩] [] rfl rfl, hclosed, hsends⟩

/-- A connection can be written to after a write to it has failed. -/
theorem frame_after_lost_frame :
    ¬ ∀ {timeouts : List Time.Duration} {s : System} {c : ConnectionId} {t : TaskId}
      {payload : Octets} {reason : String} {before after : List Entry}, Reachable timeouts s →
      s.log = before ++ ⟨c, t, .answered (.send payload) (.failed (.write reason))⟩ :: after →
      ∀ e ∈ after, e.connection = c → e.occurrence.frame? = none := by
  intro hfinal
  have hrun : Reachable [.ofMillis 50] _ := ⟨overtaken ++ overtaking, rfl⟩
  have hnone := @hfinal _ _ 0 1 [1] "broken pipe" [⟨0, 1, .called (.send [1])⟩] _ hrun rfl
    ⟨0, 2, .called (.send [2])⟩ (.head _) rfl
  cases hnone

end System

end UserDirectory.Hub

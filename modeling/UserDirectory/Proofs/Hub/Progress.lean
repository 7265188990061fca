import UserDirectory.Proofs.Hub.FanOut
import UserDirectory.Proofs.Hub.Membership
import UserDirectory.Proofs.Modify

/-!
# Operations come to an end

While an operation is in flight, something is under way (`Live.stirs`): a task can go on by itself,
or the first in a line can be let in, or a sink has been called and is cut off once its deadline has
passed. No sink is needed for that (`Stirs.goesOn`). And it goes on only so often: every such event
brings the system down in the order of `Before`, in which an operation that has not begun counts
more than anything that it may ask for, and after that an errand counts less when it stands in a
line than when it is yet to be asked for, and less again when its call is under way.
-/

namespace UserDirectory.Hub

/-! ## What is left to do -/

/-- A bound on what is left to do of an operation that has begun, without the locks that it is yet
to ask for. -/
def Progress.weight : Progress → Nat
  | starting => 0
  | writing _ asked _ => 8 * asked.length + 2
  | reviewing _ results _ => 8 * results.length + 1
  | pruning _ results _ => 8 * results.length + 2
  | sending _ _ => 8
  | failed _ _ _ => 6
  | dismissing _ => 2
  | leaving _ => 1
  | closingAll left => left + 1
  | finished _ => 0

def Task.weight (task : Task) : Nat := 3 * task.asks.length + task.progress.weight

/-- What an operation counts that has not begun. -/
def Task.unstarted (task : Task) : Nat := if task.progress = .starting then 1 else 0

def Connection.weight (conn : Connection) : Nat :=
  2 * conn.line.length + if conn.deadline.isNone then 1 else 0

/-- What an errand has ended for has no more left to do than before. -/
theorem Progress.weight_after_le (p : Progress) (c : ConnectionId) (errand : Errand)
    (result : Sent) : (p.after c errand result).weight ≤ p.weight := by
  cases errand with
  | send payload =>
    simp only [after]
    unfold afterSend
    split
    · rename_i hub asked ended
      dsimp only
      split
      · exact Nat.le_refl _
      · have hlength := List.length_filterMap_le
          (fun a => (ended ++ [(c, result)]).find? (·.1 == a)) asked
        simp only [weight]
        omega
    · split <;> simp [weight]
    · exact Nat.le_refl _
  | close =>
    simp only [after]
    unfold afterClose
    split
    · simp [weight]
    · simp [weight]
    · simp [weight]
    · split <;> simp [weight]
    · exact Nat.le_refl _

/-- Whether an operation that waits for a number of errands has one to wait for. -/
def Progress.awaits : Progress → Bool
  | writing _ asked ended => ended.length < asked.length
  | closingAll left => 0 < left
  | _ => true

theorem Progress.awaits_after {p : Progress} (h : p.awaits = true) (c : ConnectionId)
    (errand : Errand) (result : Sent) : (p.after c errand result).awaits = true := by
  cases errand with
  | send payload =>
    simp only [after]
    unfold afterSend
    split
    · dsimp only
      split
      · rename_i hlt
        exact decide_eq_true hlt
      · rfl
    · split <;> rfl
    · exact h
  | close =>
    simp only [after]
    unfold afterClose
    split
    · rfl
    · rfl
    · rfl
    · split
      · rfl
      · exact decide_eq_true (by omega)
    · exact h

/-- Whether an event is of the operations that were started. -/
def Event.advances : Event → Bool
  | act _ | enter _ | finish _ _ | expire _ => true
  | start _ | pass _ | rearrange _ _ => false

namespace System

/-- The number of operations that have not begun. -/
def unstarted (s : System) : Nat := (s.tasks.map Task.unstarted).sum

/-- What is left to do of the operations that have begun. -/
def weight (s : System) : Nat :=
  (s.tasks.map Task.weight).sum + (s.connections.map Connection.weight).sum

/-- Less is left to do in `s'` than in `s`. -/
def Before (s' s : System) : Prop :=
  s'.unstarted < s.unstarted ∨ s'.unstarted = s.unstarted ∧ s'.weight < s.weight

theorem before_induction {P : System → Prop} (h : ∀ s, (∀ s', Before s' s → P s') → P s)
    (s : System) : P s := by
  have hwf : WellFounded Before := by
    refine Subrelation.wf ?_ (InvImage.wf (fun s => (s.unstarted, s.weight))
      (Prod.lex Nat.lt_wfRel Nat.lt_wfRel).wf)
    intro s' s hlt
    obtain hlt | ⟨heq, hlt⟩ := hlt
    · exact .left _ _ hlt
    · show Prod.Lex _ _ (s'.unstarted, s'.weight) (s.unstarted, s.weight)
      rw [heq]
      exact .right _ hlt
  exact hwf.induction s fun s ih => h s ih

/-! ## Every event of an operation leaves less to do -/

section Before

variable {s s' : System} {e : Event} {t : TaskId} {op : Operation} {p p' : Progress}
  {s₁ : System} {asks : List (ConnectionId × Errand)}

/-- An operation that has begun and goes on by itself has less left to do. -/
theorem Going.weight_lt (h : Going s op p s₁ p' asks) (hp : p ≠ .starting) :
    3 * asks.length + p'.weight < p.weight := by
  cases h with
  | register | unregister | broadcastNone | broadcast | sendTo | closeNone | closeAll | contains
  | count => exact absurd rfl hp
  | reviewed | reviewOk | reviewClosed | prune | dismiss => simp [Progress.weight] <;> omega

theorem Going.before {task : Task} (h : Going s task.op task.progress s₁ p asks)
    (htask : s.tasks[t]? = some task) (hasks : task.asks = []) :
    Before (s₁.setTask t p asks) s := by
  have hunstarted : (s₁.setTask t p asks).unstarted + task.unstarted = s.unstarted := by
    have hsum := sum_map_modify Task.unstarted (fun task => { task with progress := p, asks }) htask
    simpa [unstarted, h.tasks, Task.unstarted, h.ne_starting] using hsum
  by_cases hp : task.progress = .starting
  · have hone : task.unstarted = 1 := if_pos hp
    exact .inl (by omega)
  · have hzero : task.unstarted = 0 := if_neg hp
    refine .inr ⟨by omega, ?_⟩
    have hconns : s₁.connections = s.connections := (h.members_of_begun hp).1
    have hsum := sum_map_modify Task.weight (fun task => { task with progress := p, asks }) htask
    have hlt := h.weight_lt hp
    have hself : task.weight = task.progress.weight := by simp [Task.weight, hasks]
    simp only [Task.weight] at hsum
    simp only [weight, connections_setTask, tasks_setTask, h.tasks, hconns]
    omega

theorem before_conclude {c : ConnectionId} {conn : Connection} {turn : Turn} {rest : List Turn}
    (hconn : s.connections[c]? = some conn) (hline : conn.line = turn :: rest) (result : Sent) :
    Before (s.conclude c turn result) s := by
  have hunstarted (task : Task) : Task.unstarted
      { task with progress := task.progress.after c turn.errand result } = task.unstarted := by
    by_cases hp : task.progress = .starting
    · have hafter : Progress.starting.after c turn.errand result = .starting := by
        cases turn.errand <;> rfl
      simp [Task.unstarted, hp, hafter]
    · simp [Task.unstarted, hp, after_ne_starting hp]
  have hweight (task : Task) : Task.weight
      { task with progress := task.progress.after c turn.errand result } ≤ task.weight :=
    Nat.add_le_add_left (task.progress.weight_after_le ..) _
  refine .inr ⟨congrArg List.sum (map_modify_of_eq hunstarted _ _), ?_⟩
  have htasks := sum_map_modify_le hweight s.tasks turn.task
  have hconns : ((s.conclude c turn result).connections.map Connection.weight).sum + 1 ≤
      (s.connections.map Connection.weight).sum :=
    sum_map_modify_add_le hconn (m := 0) (by simp [Connection.weight, hline]; omega)
  exact Nat.add_lt_add_of_le_of_lt htasks hconns

/-- **Every event of the operations that were started leaves less to do.** -/
theorem Move.before (h : s.Move e s') (hadvances : e.advances = true) : Before s' s := by
  cases h with
  | start | pass | rearrange => cases hadvances
  | @ask t task c errand asks htask hasks hlt =>
    have hunstarted := sum_map_modify Task.unstarted
      (fun task' => { task' with progress := task.progress, asks }) htask
    have htasks : ((((s.ask t c errand).setTask t task.progress asks).tasks.map
        Task.weight).sum) + 3 ≤ (s.tasks.map Task.weight).sum :=
      sum_map_modify_add_le htask (m := 0) (by simp [Task.weight, hasks]; omega)
    have hconns : ((((s.ask t c errand).setTask t task.progress asks).connections.map
        Connection.weight).sum) ≤ (s.connections.map Connection.weight).sum + 2 :=
      sum_map_modify_add_le (List.getElem?_eq_getElem hlt) (k := 0)
        (by simp [Connection.weight]; omega)
    refine .inr ⟨Nat.add_right_cancel hunstarted, ?_⟩
    unfold weight
    omega
  | go htask hasks hgoing => exact hgoing.before htask hasks
  | passOver hconn hline => exact before_conclude hconn hline _
  | @call c conn turn rest hconn hline hidle =>
    have hconns : (((s.modifyConnection c fun conn =>
        { conn with
          closed := turn.errand == .close
          deadline := some (s.now + conn.timeout.nanos) }).connections.map
            Connection.weight).sum) + 1 ≤ (s.connections.map Connection.weight).sum :=
      sum_map_modify_add_le hconn (m := 0) (by simp [Connection.weight, hidle])
    exact .inr ⟨rfl, Nat.add_lt_add_left hconns _⟩
  | answer result _ hconn hline => exact before_conclude hconn hline _

end Before

/-! ## There is always something that may happen -/

/-- What holds while operations are only given connections that are registered: whatever is to be
done to a connection can be done. -/
structure Live (s : System) : Prop where
  sound : s.Sound
  awaits : ∀ {t op p}, s.status t = some (op, p) → p.awaits = true
  given : ∀ {t op c}, s.op? t = some op → op.handle? = some c → ∃ hub, s.home? c = some hub
  owed : ∀ {t c errand}, (c, errand) ∈ s.owing t → ∃ hub, s.home? c = some hub
  written : ∀ {t c result}, (c, result) ∈ s.results t → ∃ hub, s.home? c = some hub

section Live

variable {s s' : System} {e : Event} {t : TaskId} {op : Operation} {p p' : Progress}
  {s₁ : System} {asks : List (ConnectionId × Errand)} {c : ConnectionId} {errand : Errand}

theorem live_init (timeouts : List Time.Duration) : (init timeouts).Live where
  sound := sound_init timeouts
  awaits h := by simp [status, init] at h
  given h := by simp [op?, init] at h
  owed h := by cases h
  written h := by cases h

theorem Going.awaits (h : Going s op p s₁ p' asks) : p'.awaits = true := by
  cases h with
  | broadcast _ hsome => exact decide_eq_true (List.length_pos_iff.mpr hsome)
  | closeAll _ hsome => exact decide_eq_true (List.length_pos_iff.mpr hsome)
  | register | unregister | broadcastNone | sendTo | closeNone | contains | count | reviewed
  | reviewOk | reviewClosed | prune | dismiss => rfl

/-- A lock for which a task asks is one of a registered connection. -/
theorem Live.asked (h : s.Live) (hstatus : s.status t = some (op, p))
    (hgoing : Going s op p s₁ p' asks) (hask : (c, errand) ∈ asks) :
    ∃ hub, s.home? c = some hub := by
  have hop := op?_of_status hstatus
  cases hgoing with
  | unregister hub d | sendTo hub d =>
    obtain ⟨rfl, -⟩ := Prod.mk.inj (List.mem_singleton.mp hask)
    exact h.given hop rfl
  | broadcast hasked =>
    obtain ⟨d, hd, heq⟩ := List.mem_map.mp hask
    obtain ⟨rfl, -⟩ := Prod.mk.inj heq
    rw [← hasked] at hd
    exact ⟨_, h.sound.registered.home (List.mem_filter.mp hd).1⟩
  | closeAll =>
    obtain ⟨d, hd, heq⟩ := List.mem_map.mp hask
    obtain ⟨rfl, -⟩ := Prod.mk.inj heq
    exact ⟨_, h.sound.registered.home hd⟩
  | prune =>
    obtain ⟨rfl, -⟩ := Prod.mk.inj (List.mem_singleton.mp hask)
    cases h.sound.standing hstatus with
    | reviewing _ _ _ hsub => exact h.written (hsub _ (List.mem_cons_self ..))
  | dismiss =>
    obtain ⟨rfl, -⟩ := Prod.mk.inj (List.mem_singleton.mp hask)
    cases h.sound.standing hstatus with
    | failed _ _ hresults => exact h.written (hresults ▸ List.mem_singleton_self _)
  | register | broadcastNone | closeNone | contains | count | reviewed | reviewOk
  | reviewClosed => cases hask

theorem Live.move (h : s.Live)
    (hgiven : ∀ op c, e = .start op → op.handle? = some c → ∃ hub, s.home? c = some hub)
    (hm : s.Move e s') : s'.Live where
  sound := sound_move h.sound hm
  awaits {t op p} hstatus := by
    cases hm.advance h.sound.lawful t with
    | rested hsame => exact h.awaits (hsame.symm.trans hstatus)
    | begun _ hstarting =>
      obtain ⟨-, rfl⟩ := Prod.mk.inj (Option.some.inj (hstarting.symm.trans hstatus))
      rfl
    | went _ hwent =>
      obtain ⟨-, rfl⟩ := Prod.mk.inj (Option.some.inj (hwent.status'.symm.trans hstatus))
      exact hwent.going.awaits
    | ended result hafter =>
      obtain ⟨p₀, hp₀, rfl⟩ := status_of_after hafter hstatus
      exact Progress.awaits_after (h.awaits hp₀) _ _ _
  given {t op c} hop hhandle := by
    obtain hop | hstart := (hm.advance h.sound.lawful t).started hop
    · exact (h.given hop hhandle).imp fun _ => hm.home?
    · exact (hgiven op c hstart hhandle).imp fun _ => hm.home?
  owed {t c errand} howed := by
    refine Exists.imp (fun _ => hm.home?) ?_
    cases hm.advance h.sound.lawful t with
    | rested _ howing => exact h.owed (howing.mem_iff.mp howed)
    | begun _ _ howing => exact h.owed (howing ▸ howed)
    | went _ hwent =>
      rw [hwent.owing_eq (h.sound.standing hwent.status)] at howed
      exact h.asked hwent.status hwent.going howed
    | ended _ _ howing => exact h.owed (howing.mem_iff.mpr (List.mem_cons_of_mem _ howed))
  written {t c result} hwritten := by
    refine Exists.imp (fun _ => hm.home?) ?_
    cases hm.advance h.sound.lawful t with
    | rested _ _ hresults => exact h.written (hresults ▸ hwritten)
    | begun _ _ _ hresults => exact h.written (hresults ▸ hwritten)
    | went _ hwent => exact h.written (hwent.results ▸ hwritten)
    | @ended d errand _ _ howing hresults =>
      rw [hresults] at hwritten
      obtain hwritten | hlast := List.mem_append.mp hwritten
      · exact h.written hwritten
      · cases errand with
        | send payload =>
          obtain ⟨rfl, -⟩ := Prod.mk.inj (List.mem_singleton.mp hlast)
          exact h.owed (howing.mem_iff.mpr (List.mem_cons_self ..))
        | close => cases hlast

theorem length_of_home? {hub : HubId} (h : s.home? c = some hub) : c < s.connections.length := by
  obtain ⟨conn, hconn, -⟩ := Option.map_eq_some_iff.mp h
  exact (List.getElem?_eq_some_iff.mp hconn).1

end Live

section Stirs

variable {s : System} {t : TaskId} {op : Operation} {p : Progress} {c : ConnectionId}

/-- Something is under way: a task can go on by itself, the first in a line can be let in, or a sink
has been called. -/
inductive Stirs (s : System) : Prop
  | act {t : TaskId} {s' : System} (hstep : s.step (.act t) = some s')
  | enter {c : ConnectionId} {s' : System} (hstep : s.step (.enter c) = some s')
  | call {c : ConnectionId} {conn : Connection} {turn : Turn} {rest : List Turn} {deadline : Nat}
      (hconn : s.connections[c]? = some conn) (hline : conn.line = turn :: rest)
      (hbusy : conn.deadline = some deadline)

/-- A line moves on. -/
theorem stirs_of_line {conn : Connection} {turn : Turn} {rest : List Turn}
    (hconn : s.connections[c]? = some conn) (hline : conn.line = turn :: rest) : s.Stirs := by
  cases hdeadline : conn.deadline with
  | none =>
    have hstep : s.step (.enter c) = some (s.letIn c conn turn) := by
      simp [step, hconn, hline, hdeadline]
    exact .enter hstep
  | some deadline => exact .call hconn hline hdeadline

/-- An errand that is owed is yet to be asked for, or stands in a line. -/
theorem Live.stirs_of_owing (h : s.Live) (howing : s.owing t ≠ []) : s.Stirs := by
  cases htask : s.tasks[t]? with
  | none => exact absurd (h.sound.unbegun (by simp [status, htask])).1 howing
  | some task =>
    cases hasks : task.asks with
    | cons ask asks =>
      obtain ⟨c, errand⟩ := ask
      have howed : (c, errand) ∈ s.owing t :=
        List.mem_append_left _ (by simp [unasked, htask, hasks])
      obtain ⟨hub, hhome⟩ := h.owed howed
      have hstep : s.step (.act t) = some ((s.ask t c errand).setTask t task.progress asks) := by
        simp [step, htask, act?, hasks, length_of_home? hhome]
      exact .act hstep
    | nil =>
      have hqueued : s.queued t ≠ [] := by
        simpa [owing, unasked, htask, hasks] using howing
      obtain ⟨x, hx⟩ := List.exists_mem_of_ne_nil _ hqueued
      obtain ⟨⟨conn, c⟩, hconn, hx⟩ := List.mem_flatMap.mp hx
      obtain ⟨turn, hturn, -⟩ := List.mem_map.mp hx
      obtain ⟨first, rest, hline⟩ :=
        List.exists_cons_of_ne_nil (List.ne_nil_of_mem (List.mem_filter.mp hturn).1)
      exact stirs_of_line (List.mem_zipIdx_iff_getElem?.mp hconn) hline

/-- A task that owes nothing takes its next step when it has one. -/
theorem step_act_of_next (hstatus : s.status t = some (op, p)) (howing : s.owing t = [])
    (hnext : p = .starting ∨ (∃ hub results delivered, p = .reviewing hub results delivered) ∨
      ∃ hub c why, p = .failed hub c why) : ∃ s', s.step (.act t) = some s' := by
  obtain ⟨task, htask, -, hp⟩ := status_eq_some_iff.mp hstatus
  have hasks : task.asks = [] := by
    simpa [unasked, htask] using (List.append_eq_nil_iff.mp howing).1
  obtain rfl | ⟨hub, results, delivered, rfl⟩ | ⟨hub, c, why, rfl⟩ := hnext <;>
    simp [step, htask, act?, hasks, hp]

/-- **While an operation is in flight, something is under way.** -/
theorem Live.stirs (h : s.Live) (hquiet : ¬ s.Quiet) : s.Stirs := by
  obtain ⟨t, hlt, hnone⟩ : ∃ t, ∃ _ : t < s.tasks.length, ¬ (s.outcome? t).isSome := by
    simpa [Quiet] using hquiet
  have hstatus : s.status t = some (s.tasks[t].op, s.tasks[t].progress) := by simp [status, hlt]
  have hne (x : ConnectionId × Errand) (howing : s.owing t = [x]) : s.owing t ≠ [] := by
    rw [howing]
    exact List.cons_ne_nil _ _
  have hawaits := h.awaits hstatus
  generalize s.tasks[t].op = op, s.tasks[t].progress = p at hstatus hawaits
  have hact (howing : s.owing t = []) (hnext : p = .starting ∨
      (∃ hub results delivered, p = .reviewing hub results delivered) ∨
      ∃ hub c why, p = .failed hub c why) : s.Stirs := by
    obtain ⟨s', hstep⟩ := step_act_of_next hstatus howing hnext
    exact .act hstep
  cases h.sound.standing hstatus with
  | starting _ howing => exact hact howing (.inl rfl)
  | reviewing _ _ howing => exact hact howing (.inr (.inl ⟨_, _, _, rfl⟩))
  | failed _ howing => exact hact howing (.inr (.inr ⟨_, _, _, rfl⟩))
  | writing except hresults hshare =>
    refine h.stirs_of_owing (t := t) fun hnil => ?_
    have hlength := hshare.length_eq
    simp only [hnil, List.length_map, List.append_nil] at hlength
    exact absurd (of_decide_eq_true hawaits) (by omega)
  | closingAll hub hleft =>
    refine h.stirs_of_owing (t := t) fun hnil => ?_
    rw [hnil] at hleft
    exact absurd (of_decide_eq_true hawaits) (by simp [← hleft])
  | pruning _ _ howing | sending howing | dismissing _ _ howing | leaving _ _ howing =>
    exact h.stirs_of_owing (hne _ howing)
  | finished => exact absurd (by simp [outcome?_eq_some_iff.mpr ⟨_, hstatus⟩]) hnone

end Stirs

end System

/-- Whether an event comes about although no sink answers but those in `takes`, which take every
frame in time. -/
def Event.unaided (takes : ConnectionId → Bool) : Event → Bool
  | act _ | enter _ | pass _ => true
  | finish c result => takes c && result == .ok
  | expire c => !takes c
  | start _ | rearrange _ _ => false

namespace System

section Progress

variable {s : System} (takes : ConnectionId → Bool)

/-- Events that no sink outside `takes` is needed for lead to where less is left to do. -/
def GoesOn (s : System) : Prop :=
  ∃ es s', (∀ e ∈ es, e.unaided takes = true) ∧ s.run es = some s' ∧ Before s' s

theorem goesOn_of_step {s' : System} {e : Event} (hstep : s.step e = some s')
    (hunaided : e.unaided takes = true) (hadvances : e.advances = true) : s.GoesOn takes :=
  ⟨[e], s', by simpa using hunaided, by simp [run, hstep],
    (move_of_step hstep).before hadvances⟩

/-- **What is under way goes on**, whatever sinks do not answer. -/
theorem Stirs.goesOn (h : s.Stirs) : s.GoesOn takes := by
  cases h with
  | act hstep | enter hstep => exact goesOn_of_step takes hstep rfl rfl
  | @call c conn turn rest deadline hconn hline hbusy =>
    by_cases htakes : takes c
    · have hstep : s.step (.finish c .ok) = some (s.endCall c turn .ok) := by
        simp [step, hconn, hline, hbusy]
      exact goesOn_of_step takes hstep (by simp [Event.unaided, htakes]) rfl
    · -- the call is cut off once its deadline has passed
      let s₁ : System := { s with now := s.now + deadline }
      have hstep : s₁.step (.expire c) =
          some (s₁.endCall c turn (.failed (cutOff conn.timeout))) := by
        simp [s₁, step, hconn, hline, hbusy]
      refine ⟨[.pass deadline, .expire c], _, ?_, ?_, (move_of_step hstep).before rfl⟩
      · simp [Event.unaided, htakes]
      · simp [run, step, s₁, hconn, hline, hbusy]

theorem ne_start_of_unaided {e : Event} (h : e.unaided takes = true) (op : Operation) :
    e ≠ .start op := by
  rintro rfl
  cases h

/-- What every unaided event keeps, every run of unaided events keeps. -/
theorem unaided_preserves {P : System → Prop} {takes : ConnectionId → Bool}
    (hmove : ∀ {s e s'}, P s → e.unaided takes = true → s.Move e s' → P s') {s s' : System}
    {es : List Event} (hes : ∀ e ∈ es, e.unaided takes = true) (hrun : s.run es = some s')
    (hs : P s) : P s' := by
  induction es generalizing s with
  | nil =>
    obtain rfl := Option.some.inj hrun
    exact hs
  | cons e es ih =>
    obtain ⟨s₁, hm, hrest⟩ := run_cons hrun
    exact ih (fun e he => hes e (.tail _ he)) hrest (hmove hs (hes e (.head _)) hm)

/-- **Every operation that was started can return**, without the help of any sink outside `takes`,
while those in `takes` take every frame in time. -/
theorem Live.becomes_quiet (h : s.Live) :
    ∃ es s', (∀ e ∈ es, e.unaided takes = true) ∧ s.run es = some s' ∧ s'.Quiet := by
  induction s using before_induction with
  | h s ih =>
    by_cases hquiet : s.Quiet
    · exact ⟨[], s, by simp, rfl, hquiet⟩
    · obtain ⟨es, s₁, hes, hrun, hbefore⟩ := (h.stirs hquiet).goesOn takes
      have hlive : s₁.Live := unaided_preserves (fun hs he hm => hs.move
        (fun op _ hstart => absurd hstart (ne_start_of_unaided takes he op)) hm) hes hrun h
      obtain ⟨es', s', hes', hrun', hquiet'⟩ := ih s₁ hbefore hlive
      refine ⟨es ++ es', s', fun e he => ?_, run_append hrun hrun', hquiet'⟩
      exact (List.mem_append.mp he).elim (hes e) (hes' e)

end Progress

end System

end UserDirectory.Hub

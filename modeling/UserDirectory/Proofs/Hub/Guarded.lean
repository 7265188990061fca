import UserDirectory.Hub.Guarded
import UserDirectory.Proofs.Hub.Progress

/-!
# What the locks of the registries add

`Move` says what a single event does to a guarded system. A guarded system does nothing that it
could not do without the locks (`run_system`), and the clock apart it can do all that (`exists_run`).
So what holds of a system holds of it here, and two things come on top, which `Fit` puts together.

The line for the locks: whoever stands in it needs the lock for its next step, and stands in no line
of a connection (`Sound.owing_of_access`), since a task touches a registry only when it owes nothing
at any connection. That is why no lock is had while another is waited for.

The clock: a call of a sink has a deadline as far off as the registry of its connection allows
(`Timely`), and it has ended when the clock is past it (`Fit.over_run`).
-/

namespace UserDirectory.Hub

open Time (Duration)

/-! ## The lock for the next step -/

/-- The points at which a task touches a registry. -/
theorem Progress.next_of_access {op : Operation} {p : Progress} {x : HubId × Access}
    (h : p.access? op = some x) :
    p = .starting ∨ (∃ hub results delivered, p = .reviewing hub results delivered) ∨
      ∃ hub c why, p = .failed hub c why := by
  cases p with
  | starting => exact .inl rfl
  | reviewing hub results delivered => exact .inr (.inl ⟨hub, results, delivered, rfl⟩)
  | failed hub c why => exact .inr (.inr ⟨hub, c, why, rfl⟩)
  | writing | pruning | sending | dismissing | leaving | closingAll | finished => cases h

namespace System

section Access

variable {s s' : System} {e : Event} {t : TaskId} {x : HubId × Access}

theorem access?_eq (s : System) (t : TaskId) :
    s.access? t = (s.status t).bind fun y => y.2.access? y.1 := by
  unfold access? status
  cases s.tasks[t]? <;> rfl

theorem lt_of_access (h : s.access? t = some x) : t < s.tasks.length := by
  obtain ⟨task, htask, -⟩ := Option.bind_eq_some_iff.mp h
  exact (List.getElem?_eq_some_iff.mp htask).1

/-- **Who needs the lock of a registry stands in no line of a connection**, and is about to join
none. -/
theorem Sound.owing_of_access (hs : s.Sound) (h : s.access? t = some x) : s.owing t = [] := by
  rw [access?_eq] at h
  obtain ⟨⟨op, p⟩, hstatus, haccess⟩ := Option.bind_eq_some_iff.mp h
  cases hs.standing hstatus with
  | starting _ howing | reviewing _ _ howing | failed _ howing => exact howing
  | writing | pruning | sending | dismissing | leaving | closingAll | finished => cases haccess

/-- Who has the lock that it needs takes its step. -/
theorem Sound.step_act_of_access (hs : s.Sound) (h : s.access? t = some x) :
    ∃ s', s.step (.act t) = some s' := by
  have howing := hs.owing_of_access h
  rw [access?_eq] at h
  obtain ⟨⟨op, p⟩, hstatus, haccess⟩ := Option.bind_eq_some_iff.mp h
  exact step_act_of_next hstatus howing (Progress.next_of_access haccess)

/-- What others do does not change which lock a task needs. -/
theorem Sound.access_move (hs : s.Sound) (hm : s.Move e s') (h : s.access? t = some x)
    (hother : e ≠ .act t) : s'.access? t = some x := by
  cases hm.advance hs.lawful t with
  | rested hstatus => rw [access?_eq, hstatus, ← access?_eq, h]
  | begun hnone =>
    rw [access?_eq, hnone] at h
    cases h
  | went hact => exact absurd hact hother
  | ended _ _ howing =>
    -- an errand ends only for a task that owes it
    rw [hs.owing_of_access h] at howing
    exact absurd howing.symm.eq_nil (List.cons_ne_nil _ _)

end Access

/-! ## Deadlines -/

section Timely

variable {s s' : System} {e : Event} {hub : HubId}

theorem timeout_setMembers (s : System) (hub hub' : HubId)
    (f : List ConnectionId → List ConnectionId) :
    (s.setMembers hub f).timeout hub' = s.timeout hub' := by
  simp only [timeout, setMembers, List.getElem?_modify]
  cases s.hubs[hub']? with
  | none => rfl
  | some h => by_cases heq : hub = hub' <;> simp [heq]

theorem timeout_enroll (s : System) (hub hub' : HubId) :
    (s.enroll hub).timeout hub' = s.timeout hub' := timeout_setMembers ..

theorem Going.timeout {op : Operation} {p p' : Progress} {s₁ : System}
    {asks : List (ConnectionId × Errand)} (h : Going s op p s₁ p' asks) (hub : HubId) :
    s₁.timeout hub = s.timeout hub := by
  cases h with
  | register => exact timeout_enroll ..
  | unregister | closeAll | prune | dismiss => exact timeout_setMembers ..
  | broadcastNone | broadcast | sendTo | closeNone | contains | count | reviewed | reviewOk
  | reviewClosed => rfl

theorem Move.timeout (h : s.Move e s') (hub : HubId) : s'.timeout hub = s.timeout hub := by
  cases h with
  | go _ _ hgoing => exact hgoing.timeout hub
  | rearrange => exact timeout_setMembers ..
  | start | pass | ask | passOver | call | answer => rfl

theorem Going.now {op : Operation} {p p' : Progress} {s₁ : System}
    {asks : List (ConnectionId × Errand)} (h : Going s op p s₁ p' asks) : s₁.now = s.now := by
  cases h <;> rfl

/-- A connection keeps its time limit; a new one gets that of its registry. -/
theorem Change.timeout {c : ConnectionId} {conn' : Connection} (h : Change s s' c)
    (hconn' : s'.connections[c]? = some conn') : conn'.timeout = s.timeout conn'.hub ∨
      ∃ conn, s.connections[c]? = some conn ∧ conn.hub = conn'.hub ∧
        conn.timeout = conn'.timeout := by
  cases h with
  | untouched hsame => exact .inr ⟨conn', hsame.symm.trans hconn', rfl, rfl⟩
  | born _ hborn =>
    obtain rfl := Option.some.inj (hborn.symm.trans hconn')
    exact .inl rfl
  | joined _ hconn hsame | passedOver hconn _ _ _ hsame | called hconn _ _ _ hsame
  | answered _ hconn _ _ hsame =>
    obtain rfl := Option.some.inj (hsame.symm.trans hconn')
    exact .inr ⟨_, hconn, rfl, rfl⟩

/-- Only the passing of time moves the clock. -/
theorem Move.now (h : s.Move e s') : (∃ nanos, e = .pass nanos ∧ s'.now = s.now + nanos) ∨
    (∀ nanos, e ≠ .pass nanos) ∧ s'.now = s.now := by
  cases h with
  | pass nanos => exact .inl ⟨nanos, rfl, rfl⟩
  | go _ _ hgoing => exact .inr ⟨nofun, hgoing.now⟩
  | start | rearrange | ask | passOver | call => exact .inr ⟨nofun, rfl⟩
  | answer _ hreturn =>
    refine .inr ⟨?_, rfl⟩
    rintro nanos rfl
    rcases hreturn with heq | heq <;> cases heq

theorem timeout_init_pos (timeouts : List Duration) (hub : HubId) :
    0 < ((init timeouts).timeout hub).nanos := by
  unfold timeout
  cases hregistry : (init timeouts).hubs[hub]? with
  | none => exact (by decide : 0 < defaultWriteTimeout.nanos)
  | some registry =>
    rw [init, List.getElem?_map] at hregistry
    obtain ⟨given, -, rfl⟩ := Option.map_eq_some_iff.mp hregistry
    exact Duration.orDefault_pos (by decide)

/-- Each connection has the time limit of its registry, and no call is past its deadline. -/
structure Timely (limit : HubId → Duration) (s : System) : Prop where
  hubs : ∀ hub, s.timeout hub = limit hub
  issued : ∀ {c : ConnectionId} {conn : Connection}, s.connections[c]? = some conn →
    conn.timeout = limit conn.hub
  called : ∀ {c : ConnectionId} {conn : Connection} {deadline : Nat},
    s.connections[c]? = some conn → conn.deadline = some deadline →
    s.now ≤ deadline ∧ deadline ≤ s.now + conn.timeout.nanos

theorem timely_init (timeouts : List Duration) :
    Timely (init timeouts).timeout (init timeouts) where
  hubs _ := rfl
  issued h := by simp [init] at h
  called h := by simp [init] at h

theorem Timely.move {limit : HubId → Duration} (h : Timely limit s) (hm : s.Move e s')
    (hclock : ∀ nanos, e = .pass nanos → ∀ {c : ConnectionId} {conn : Connection} {deadline : Nat},
      s.connections[c]? = some conn → conn.deadline = some deadline → s.now + nanos ≤ deadline) :
    Timely limit s' where
  hubs hub := (hm.timeout hub).trans (h.hubs hub)
  issued {c conn'} hconn' := by
    rcases (hm.change c).timeout hconn' with hnew | ⟨conn, hconn, hhub, htimeout⟩
    · exact hnew.trans (h.hubs _)
    · rw [← hhub, ← htimeout]
      exact h.issued hconn
  called {c conn' deadline} hconn' hdeadline := by
    obtain ⟨nanos, rfl, hnow⟩ | ⟨-, hnow⟩ := hm.now
    · cases hm with
      | pass =>
        have hle := hclock nanos rfl hconn' hdeadline
        have hcalled := (h.called hconn' hdeadline).2
        exact ⟨hle, Nat.le_trans hcalled (Nat.add_le_add_right (Nat.le_add_right ..) _)⟩
      | answer _ hreturn => rcases hreturn with heq | heq <;> cases heq
    · rw [hnow]
      cases hm.change c with
      | untouched hsame => exact h.called (hsame.symm.trans hconn') hdeadline
      | born _ hborn =>
        obtain rfl := Option.some.inj (hborn.symm.trans hconn')
        cases hdeadline
      | joined _ hconn hjoined =>
        obtain rfl := Option.some.inj (hjoined.symm.trans hconn')
        have hcalled := h.called hconn hdeadline
        exact hcalled
      | passedOver _ _ _ _ hpassed =>
        obtain rfl := Option.some.inj (hpassed.symm.trans hconn')
        cases hdeadline
      | called _ _ _ _ hcalled =>
        -- the deadline is as far off as the time limit
        obtain rfl := Option.some.inj (hcalled.symm.trans hconn')
        obtain rfl := Option.some.inj hdeadline
        exact ⟨Nat.le_add_right .., Nat.le_refl _⟩
      | answered _ _ _ _ hanswered =>
        obtain rfl := Option.some.inj (hanswered.symm.trans hconn')
        cases hdeadline

end Timely

/-! ## A call comes to its end -/

section Over

variable {s₀ s s' : System} {e : Event} {c : ConnectionId} {turn : Turn} {deadline : Nat}

/-- The call of `turn` that was under way in `s₀` is so in `s`. -/
structure UnderWay (s₀ s : System) (c : ConnectionId) (turn : Turn) (deadline : Nat) : Prop where
  history : s.history c = s₀.history c
  called : ∃ conn rest, s.connections[c]? = some conn ∧ conn.line = turn :: rest ∧
    conn.deadline = some deadline

/-- The call of `turn` that was under way in `s₀` has ended in `s`. -/
def Over (s₀ s : System) (c : ConnectionId) (turn : Turn) : Prop :=
  ∃ result later,
    s.history c = s₀.history c ++ (turn.task, .answered turn.errand result) :: later

theorem Change.history (h : Change s s' c) : ∃ more, s'.history c = s.history c ++ more := by
  cases h with
  | untouched _ hlog | born _ _ hlog | joined _ _ _ hlog => exact ⟨[], by simp [hlog]⟩
  | passedOver _ _ _ _ _ hlog | called _ _ _ _ _ hlog | answered _ _ _ _ _ hlog => exact ⟨_, hlog⟩

theorem Over.move (h : Over s₀ s c turn) (hm : s.Move e s') : Over s₀ s' c turn := by
  obtain ⟨result, later, hhistory⟩ := h
  obtain ⟨more, hmore⟩ := (hm.change c).history
  exact ⟨result, later ++ more, by rw [hmore, hhistory, List.append_assoc, List.cons_append]⟩

/-- Nothing comes to a sink that is called but the end of the call. -/
theorem UnderWay.move (h : UnderWay s₀ s c turn deadline) (hm : s.Move e s') :
    UnderWay s₀ s' c turn deadline ∨ Over s₀ s' c turn := by
  obtain ⟨hhistory, conn, rest, hconn, hline, hbusy⟩ := h
  cases hm.change c with
  | untouched hsame hlog =>
    exact .inl ⟨hlog.trans hhistory, conn, rest, hsame.trans hconn, hline, hbusy⟩
  | born hnone => exact absurd (List.getElem?_eq_some_iff.mp hconn).1 (by omega)
  | joined last hconn₁ hconn' hlog =>
    obtain rfl := Option.some.inj (hconn.symm.trans hconn₁)
    exact .inl ⟨hlog.trans hhistory, _, rest ++ [last], hconn', by simp [hline], hbusy⟩
  | passedOver hconn₁ _ hidle | called hconn₁ _ hidle =>
    obtain rfl := Option.some.inj (hconn.symm.trans hconn₁)
    rw [hidle] at hbusy
    cases hbusy
  | answered result hconn₁ hline₁ _ _ hlog =>
    obtain rfl := Option.some.inj (hconn.symm.trans hconn₁)
    obtain ⟨rfl, -⟩ := List.cons.inj (hline.symm.trans hline₁)
    exact .inr ⟨result, [], by rw [hlog, hhistory]⟩

/-- **A call is under way until it ends.** -/
theorem underWay_or_over {es : List Event} (h : UnderWay s s c turn deadline)
    (hrun : s.run es = some s') : UnderWay s s' c turn deadline ∨ Over s s' c turn := by
  refine run_preserves (P := fun s' => UnderWay s s' c turn deadline ∨ Over s s' c turn)
    (fun h hm => ?_) (.inl h) hrun
  exact h.elim (·.move hm) fun h => .inr (h.move hm)

end Over

end System

namespace Guarded

variable {g g' : Guarded} {e : Event}

/-! ## One event -/

/-- What a single event does to a guarded system. -/
inductive Move (g : Guarded) : Event → Guarded → Prop
  | ask {t : TaskId} {hub : HubId} {access : Access}
      (hneeds : g.system.access? t = some (hub, access)) (hnew : ∀ v ∈ g.visits, v.task ≠ t) :
      Move g (.ask t) { g with visits := g.visits ++ [⟨t, hub, access⟩] }
  | own {e : Hub.Event} {s : System} (hm : g.system.Move e s) (hadmits : g.admits e = true)
      (hclock : ∀ nanos, e = .pass nanos → g.mayPass nanos = true) :
      Move g (.own e) ⟨s, g.leave e⟩

theorem proceed?_own {e : Hub.Event} (h : g.proceed? (.own e) = some g') :
    g.admits e = true ∧ ∃ s, g.system.step e = some s ∧ g' = ⟨s, g.leave e⟩ := by
  simp only [proceed?] at h
  split at h
  · obtain ⟨s, hstep, rfl⟩ := Option.map_eq_some_iff.mp h
    exact ⟨‹_›, s, hstep, rfl⟩
  · cases h

theorem proceed?_of_step (h : g.step e = some g') :
    g.proceed? e = some g' ∧ ∀ nanos, e = .own (.pass nanos) → g.mayPass nanos = true := by
  unfold step at h
  split at h
  · rename_i nanos
    split at h
    · rename_i hpass
      refine ⟨h, fun nanos' heq => ?_⟩
      cases heq
      exact hpass
    · cases h
  · rename_i hother
    exact ⟨h, fun nanos heq => absurd heq (hother nanos)⟩

/-- **A task asks for a lock, or something happens to the system.** -/
theorem move_of_step (h : g.step e = some g') : g.Move e g' := by
  obtain ⟨hproceed, hclock⟩ := proceed?_of_step h
  cases e with
  | ask t =>
    simp only [proceed?] at hproceed
    split at hproceed
    · split at hproceed
      · cases hproceed
      · rename_i hneeds hnew
        obtain rfl := Option.some.inj hproceed
        exact .ask hneeds (by simpa using hnew)
    · cases hproceed
  | own e =>
    obtain ⟨hadmits, s, hstep, rfl⟩ := proceed?_own hproceed
    exact .own (System.move_of_step hstep) hadmits fun nanos heq => hclock nanos (congrArg _ heq)

/-- The event of the system, if it is one. -/
def Event.own? : Event → Option Hub.Event
  | ask _ => none
  | own e => some e

theorem run_append (g : Guarded) (es es' : List Event) :
    g.run (es ++ es') = (g.run es).bind (run · es') := by
  induction es generalizing g with
  | nil => rfl
  | cons e es ih =>
    cases hstep : g.step e with
    | none => simp [run, hstep]
    | some g₁ => simp [run, hstep, ih]

/-- **A guarded system does nothing that it could not do without the locks.** -/
theorem run_system {es : List Event} (h : g.run es = some g') :
    g.system.run (es.filterMap Event.own?) = some g'.system := by
  induction es generalizing g with
  | nil =>
    obtain rfl := Option.some.inj h
    rfl
  | cons e es ih =>
    obtain ⟨g₁, hstep, hrest⟩ := Option.bind_eq_some_iff.mp h
    have hproceed := (proceed?_of_step hstep).1
    cases e with
    | ask t =>
      have hsame : g₁.system = g.system := by
        cases move_of_step hstep
        rfl
      exact hsame ▸ ih hrest
    | own e =>
      obtain ⟨-, s, hsystem, rfl⟩ := proceed?_own hproceed
      exact Option.bind_eq_some_iff.mpr ⟨s, hsystem, ih hrest⟩

/-- An event of the system, after asking for the lock that it needs while nobody else is in line. -/
theorem exists_run_of_step {s s' : System} {e : Hub.Event} (hstep : s.step e = some s')
    (hclock : ∀ nanos, e ≠ .pass nanos) :
    ∃ es, (⟨s, []⟩ : Guarded).run es = some ⟨s', []⟩ ∧ es.filterMap Event.own? = [e] := by
  cases e with
  | pass nanos => exact absurd rfl (hclock nanos)
  | start | enter | finish | expire | rearrange =>
    exact ⟨[.own _], by simp [run, step, proceed?, admits, leave, hstep], rfl⟩
  | act t =>
    cases hneeds : s.access? t with
    | none => exact ⟨[.own _], by simp [run, step, proceed?, admits, leave, hneeds, hstep], rfl⟩
    | some x =>
      refine ⟨[.ask t, .own (.act t)], ?_, rfl⟩
      simp [run, step, proceed?, admits, leave, holds, hneeds, hstep]

/-- **The locks take nothing away**: the clock apart, what a system does it can do with them. -/
theorem exists_run {s s' : System} {es : List Hub.Event} (hrun : s.run es = some s')
    (hclock : ∀ nanos, .pass nanos ∉ es) :
    ∃ es', (⟨s, []⟩ : Guarded).run es' = some ⟨s', []⟩ ∧ es'.filterMap Event.own? = es := by
  induction es generalizing s with
  | nil =>
    obtain rfl := Option.some.inj hrun
    exact ⟨[], rfl, rfl⟩
  | cons e es ih =>
    obtain ⟨s₁, hstep, hrest⟩ := Option.bind_eq_some_iff.mp hrun
    obtain ⟨es₁, hrun₁, hown₁⟩ := exists_run_of_step hstep
      fun nanos heq => hclock nanos (heq ▸ .head _)
    obtain ⟨es₂, hrun₂, hown₂⟩ := ih hrest fun nanos hmem => hclock nanos (.tail _ hmem)
    refine ⟨es₁ ++ es₂, ?_, by rw [List.filterMap_append, hown₁, hown₂]; rfl⟩
    rw [run_append, hrun₁]
    exact hrun₂

/-! ## Runs -/

/-- Whether an operation that is started was given a connection that is registered somewhere. -/
def givesHandle (g : Guarded) : Event → Bool
  | .own (.start op) => op.handle?.all fun c => (g.system.home? c).isSome
  | _ => true

/-- Whether along a run operations are given connections that are registered somewhere. -/
def givesHandles : Guarded → List Event → Bool
  | _, [] => true
  | g, e :: es => g.givesHandle e && (g.step e).all (givesHandles · es)

/-- What holds of a guarded system at every moment. -/
structure Fit (limit : HubId → Duration) (g : Guarded) : Prop where
  live : g.system.Live
  timely : g.system.Timely limit
  /-- whoever stands in the line needs the lock for its next step -/
  needs : ∀ v ∈ g.visits, g.system.access? v.task = some (v.hub, v.access)
  /-- a task stands in the line at most once -/
  once : (g.visits.map (·.task)).Nodup

variable {limit : HubId → Duration}

theorem fit_init (timeouts : List Duration) :
    Fit (System.init timeouts).timeout (init timeouts) where
  live := System.live_init timeouts
  timely := System.timely_init timeouts
  needs _ hv := by cases hv
  once := .nil

theorem leave_sublist (g : Guarded) (e : Hub.Event) : (g.leave e).Sublist g.visits := by
  cases e with
  | act t => exact List.filter_sublist
  | start | enter | finish | expire | pass | rearrange => exact .refl _

theorem ne_act_of_mem_leave {e : Hub.Event} {v : Visit} (hv : v ∈ g.leave e) :
    e ≠ .act v.task := by
  rintro rfl
  simpa using (List.mem_filter.mp hv).2

theorem le_of_mayPass {nanos : Nat} (h : g.mayPass nanos = true) {c : ConnectionId}
    {conn : Connection} {deadline : Nat} (hconn : g.system.connections[c]? = some conn)
    (hdeadline : conn.deadline = some deadline) : g.system.now + nanos ≤ deadline := by
  have hmem : deadline ∈ g.deadlines :=
    List.mem_filterMap.mpr ⟨conn, List.mem_of_getElem? hconn, hdeadline⟩
  simp only [mayPass, Bool.and_eq_true, List.all_eq_true, decide_eq_true_iff] at h
  exact h.2 deadline hmem

theorem Fit.move (h : g.Fit limit) (hgiven : g.givesHandle e = true) (hm : g.Move e g') :
    g'.Fit limit := by
  cases hm with
  | @ask t hub access hneeds hnew =>
    refine ⟨h.live, h.timely, fun v hv => ?_, ?_⟩
    · rcases List.mem_append.mp hv with hv | hv
      · exact h.needs v hv
      · obtain rfl := List.mem_singleton.mp hv
        exact hneeds
    · rw [List.map_append, List.nodup_append]
      refine ⟨h.once, List.pairwise_singleton .., fun t₁ ht₁ t₂ ht₂ => ?_⟩
      obtain ⟨v, hv, rfl⟩ := List.mem_map.mp ht₁
      obtain rfl := List.mem_singleton.mp ht₂
      exact hnew v hv
  | @own e s hm hadmits hclock =>
    refine ⟨h.live.move (fun op c hstart hhandle => ?_) hm, h.timely.move hm fun nanos heq => ?_,
      fun v hv => ?_, h.once.sublist ((g.leave_sublist e).map _)⟩
    · subst hstart
      simp only [givesHandle, hhandle, Option.all_some] at hgiven
      exact Option.isSome_iff_exists.mp hgiven
    · exact le_of_mayPass (hclock nanos heq)
    · exact h.live.sound.access_move hm (h.needs v ((g.leave_sublist e).subset hv))
        (ne_act_of_mem_leave hv)

theorem fit_run {es : List Event} (h : g.Fit limit) (hgiven : g.givesHandles es = true)
    (hrun : g.run es = some g') : g'.Fit limit := by
  induction es generalizing g with
  | nil =>
    obtain rfl := Option.some.inj hrun
    exact h
  | cons e es ih =>
    obtain ⟨g₁, hstep, hrest⟩ := Option.bind_eq_some_iff.mp hrun
    simp only [givesHandles, hstep, Option.all_some, Bool.and_eq_true] at hgiven
    exact ih (h.move hgiven.1 (move_of_step hstep)) hgiven.2 hrest

/-- Only a connection with somebody in its line has a call under way. -/
theorem Fit.exists_turn (h : g.Fit limit) {c : ConnectionId} {conn : Connection} {deadline : Nat}
    (hconn : g.system.connections[c]? = some conn) (hbusy : conn.deadline = some deadline) :
    ∃ turn rest, conn.line = turn :: rest := by
  cases h.live.sound.lawful.follows hconn with
  | idle hidle =>
    rw [hbusy] at hidle
    cases hidle
  | busy _ hline => exact ⟨_, _, hline⟩

/-- **A call does not outlast its deadline**: when the clock is past it, the call has ended. -/
theorem Fit.over_run (h : g.Fit limit) {es : List Event} (hgiven : g.givesHandles es = true)
    (hrun : g.run es = some g') {c : ConnectionId} {conn : Connection} {turn : Turn}
    {rest : List Turn} {deadline : Nat} (hconn : g.system.connections[c]? = some conn)
    (hline : conn.line = turn :: rest) (hbusy : conn.deadline = some deadline)
    (hlate : deadline < g'.system.now) : System.Over g.system g'.system c turn := by
  obtain hcalled | hover := System.underWay_or_over
    ⟨rfl, conn, rest, hconn, hline, hbusy⟩ (run_system hrun)
  · obtain ⟨conn', -, hconn', -, hbusy'⟩ := hcalled.called
    have hle := ((fit_run h hgiven hrun).timely.called hconn' hbusy').1
    omega
  · exact hover

end Guarded

end UserDirectory.Hub

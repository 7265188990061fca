import Mathlib.Algebra.Order.BigOperators.Group.List
import Mathlib.Algebra.Order.Group.Nat
import Mathlib.Data.List.Nodup
import Mathlib.Data.List.Perm.Subperm
import Mathlib.Logic.Relation
import UserDirectory.Proofs.Hub.Guarded

/-!
# Operations return

However tasks, sinks and the clock take turns, all operations that were started have returned after
finitely many events (`Fit.returns`). Two facts carry this. Something can always happen that no sink
is needed for (`Fit.goesOn`): whoever is first in the line for the locks of the registries has its
lock and owes nothing elsewhere, and if nothing can happen at once, then a sink is called and its
deadline is ahead. And whatever happens leaves less to do (`Fit.before`): the measure of the system,
then the tasks that are not in line for a lock, with the time that the calls under way have left.

That nobody waits for a lock that will not be given back is a fact of its own (`Fit.acyclic`): who
has a lock waits for nobody, neither for a lock nor for an errand (`Fit.not_waitsFor_of_holds`).
-/

namespace UserDirectory.Hub

open Time (Duration)

/-- The time that the call under way has left. -/
def Connection.remaining (now : Nat) (conn : Connection) : Nat :=
  match conn.deadline with
  | some deadline => deadline - now
  | none => 0

namespace Guarded

variable {g g' : Guarded} {e : Event} {limit : HubId → Duration} {t : TaskId}

/-! ## Something can happen -/

/-- Whether an event comes about although no sink answers. -/
def Event.unaided : Event → Bool
  | ask _ => true
  | own e => e.unaided fun _ => false

theorem mem_prompt_ask (h : t < g.system.tasks.length) : .ask t ∈ g.prompt :=
  List.mem_append_left _ (List.mem_flatMap.mpr ⟨t, List.mem_range.mpr h, .head _⟩)

theorem mem_prompt_act (h : t < g.system.tasks.length) : .own (.act t) ∈ g.prompt :=
  List.mem_append_left _ (List.mem_flatMap.mpr ⟨t, List.mem_range.mpr h, .tail _ (.head _)⟩)

theorem mem_prompt_enter {c : ConnectionId} (h : c < g.system.connections.length) :
    .own (.enter c) ∈ g.prompt :=
  List.mem_append_right _ (List.mem_flatMap.mpr ⟨c, List.mem_range.mpr h, .head _⟩)

theorem mem_prompt_expire {c : ConnectionId} (h : c < g.system.connections.length) :
    .own (.expire c) ∈ g.prompt :=
  List.mem_append_right _ (List.mem_flatMap.mpr ⟨c, List.mem_range.mpr h, .tail _ (.head _)⟩)

/-- What is prompt needs no sink, and does not wait for the clock. -/
theorem unaided_of_prompt (h : e ∈ g.prompt) :
    e.unaided = true ∧ g.step e = g.proceed? e := by
  simp only [prompt, List.mem_append, List.mem_flatMap, List.mem_cons, List.not_mem_nil,
    or_false] at h
  obtain ⟨t, -, rfl | rfl⟩ | ⟨c, -, rfl | rfl⟩ := h <;> exact ⟨rfl, rfl⟩

theorem rests_eq_false_iff :
    g.rests = false ↔ ∃ e ∈ g.prompt, ∃ g', g.proceed? e = some g' := by
  simp [rests, Option.ne_none_iff_exists']

theorem proceed?_of_admits {e : Hub.Event} {s : System} (hadmits : g.admits e = true)
    (hstep : g.system.step e = some s) : g.proceed? (.own e) = some ⟨s, g.leave e⟩ := by
  simp [proceed?, hadmits, hstep]

/-- Who needs no lock is not kept from its step, and who is first in line has its lock. -/
theorem Fit.not_rests_of_act (h : g.Fit limit) {s : System}
    (hstep : g.system.step (.act t) = some s) : g.rests = false := by
  refine rests_eq_false_iff.mpr ?_
  obtain ⟨task, htask, -⟩ := Option.bind_eq_some_iff.mp hstep
  have hlt := (List.getElem?_eq_some_iff.mp htask).1
  cases hneeds : g.system.access? t with
  | none =>
    have hadmits : g.admits (.act t) = true := by simp [admits, hneeds]
    exact ⟨_, mem_prompt_act hlt, _, proceed?_of_admits hadmits hstep⟩
  | some x =>
    cases hvisits : g.visits with
    | nil =>
      have hask : g.proceed? (.ask t) = some { g with visits := g.visits ++ [⟨t, x.1, x.2⟩] } := by
        simp [proceed?, hneeds, hvisits]
      exact ⟨_, mem_prompt_ask hlt, _, hask⟩
    | cons v rest =>
      have hfirst := h.needs v (hvisits ▸ List.mem_cons_self)
      obtain ⟨s', hstep'⟩ := h.live.sound.step_act_of_access hfirst
      have hadmits : g.admits (.act v.task) = true := by
        simp [admits, hfirst, holds, hvisits]
      exact ⟨_, mem_prompt_act (System.lt_of_access hfirst), _, proceed?_of_admits hadmits hstep'⟩

/-- **If nothing can happen at once, a sink is called**, as long as an operation is in flight. -/
theorem Fit.called_of_rests (h : g.Fit limit) (hquiet : ¬ g.system.Quiet)
    (hrests : g.rests = true) :
    ∃ (c : ConnectionId) (conn : Connection) (deadline : Nat),
      g.system.connections[c]? = some conn ∧ conn.deadline = some deadline := by
  cases h.live.stirs hquiet with
  | act hstep => exact absurd (h.not_rests_of_act hstep) (by simp [hrests])
  | @enter c s hstep =>
    have hlt : c < g.system.connections.length := by
      by_contra hnot
      simp [System.step, List.getElem?_eq_none (Nat.le_of_not_lt hnot)] at hstep
    have hnot := rests_eq_false_iff.mpr
      ⟨_, mem_prompt_enter hlt, _, proceed?_of_admits rfl hstep⟩
    exact absurd hnot (by simp [hrests])
  | call hconn _ hbusy => exact ⟨_, _, _, hconn, hbusy⟩

/-- If nothing can happen at once, the deadlines are ahead. -/
theorem Fit.lt_deadline_of_rests (h : g.Fit limit) (hrests : g.rests = true) {c : ConnectionId}
    {conn : Connection} {deadline : Nat} (hconn : g.system.connections[c]? = some conn)
    (hbusy : conn.deadline = some deadline) : g.system.now < deadline := by
  by_contra hnot
  obtain ⟨turn, rest, hline⟩ := h.exists_turn hconn hbusy
  have hstep : g.system.step (.expire c) =
      some (g.system.endCall c turn (.failed (cutOff conn.timeout))) := by
    simp [System.step, hconn, hline, hbusy, Nat.le_of_not_lt hnot]
  have hprompt := rests_eq_false_iff.mpr ⟨_,
    mem_prompt_expire (List.getElem?_eq_some_iff.mp hconn).1, _, proceed?_of_admits rfl hstep⟩
  exact absurd hprompt (by simp [hrests])

/-- **Something can always happen**, whatever sinks do not answer. -/
theorem Fit.goesOn (h : g.Fit limit) : ∃ e g', e.unaided = true ∧ g.step e = some g' := by
  cases hrests : g.rests with
  | false =>
    obtain ⟨e, he, g', hproceed⟩ := rests_eq_false_iff.mp hrests
    obtain ⟨hunaided, hstep⟩ := unaided_of_prompt he
    exact ⟨e, g', hunaided, hstep.trans hproceed⟩
  | true =>
    -- the clock may move, since no deadline has come
    have hpass : g.mayPass 1 = true := by
      simp only [mayPass, hrests, Bool.and_eq_true, List.all_eq_true, decide_eq_true_iff]
      refine ⟨by decide, fun deadline hdeadline => ?_⟩
      obtain ⟨conn, hmem, hbusy⟩ := List.mem_filterMap.mp hdeadline
      obtain ⟨c, hconn⟩ := List.mem_iff_getElem?.mp hmem
      exact h.lt_deadline_of_rests hrests hconn hbusy
    have hstep : g.step (.own (.pass 1)) = g.proceed? (.own (.pass 1)) := if_pos hpass
    exact ⟨.own (.pass 1), _, rfl, hstep.trans (proceed?_of_admits rfl rfl)⟩

/-! ## Less is left to do -/

/-- What is left when the system itself is at the same point: the tasks that may still get in line
for a lock, and the time that the calls have left. -/
def patience (g : Guarded) : Nat :=
  (g.system.tasks.length - g.visits.length) +
    (g.system.connections.map (·.remaining g.system.now)).sum

def measure (g : Guarded) : Nat × Nat × Nat :=
  (g.system.unstarted, g.system.weight, g.patience)

/-- Less is left to do in `g'` than in `g`. -/
def Before (g' g : Guarded) : Prop :=
  Prod.Lex (· < ·) (Prod.Lex (· < ·) (· < ·)) g'.measure g.measure

theorem before_wf : WellFounded Before :=
  InvImage.wf measure (Prod.lex Nat.lt_wfRel (Prod.lex Nat.lt_wfRel Nat.lt_wfRel)).wf

theorem before_of_system (h : g'.system.Before g.system) : g'.Before g := by
  obtain hlt | ⟨heq, hlt⟩ := h
  · exact .left _ _ hlt
  · unfold Before measure
    rw [heq]
    exact .right _ (.left _ _ hlt)

theorem before_of_patience (hunstarted : g'.system.unstarted = g.system.unstarted)
    (hweight : g'.system.weight = g.system.weight) (h : g'.patience < g.patience) :
    g'.Before g := by
  unfold Before measure
  rw [hunstarted, hweight]
  exact .right _ (.right _ h)

/-- There are no more places in the line than tasks. -/
theorem Fit.length_visits_le (h : g.Fit limit) : g.visits.length ≤ g.system.tasks.length := by
  have hsub : g.visits.map (·.task) ⊆ List.range g.system.tasks.length := by
    intro t ht
    obtain ⟨v, hv, rfl⟩ := List.mem_map.mp ht
    exact List.mem_range.mpr (System.lt_of_access (h.needs v hv))
  simpa using (h.once.subperm hsub).length_le

/-- While the clock runs, the calls under way come closer to their deadlines. -/
theorem Fit.remaining_lt (h : g.Fit limit) (hquiet : ¬ g.system.Quiet) {nanos : Nat}
    (hpass : g.mayPass nanos = true) :
    (g.system.connections.map (·.remaining (g.system.now + nanos))).sum <
      (g.system.connections.map (·.remaining g.system.now)).sum := by
  obtain ⟨hpos, hrests⟩ : 0 < nanos ∧ g.rests = true := by
    simp only [mayPass, Bool.and_eq_true, decide_eq_true_iff] at hpass
    exact hpass.1
  refine List.sum_lt_sum _ _ (fun conn _ => ?_) ?_
  · unfold Connection.remaining
    split <;> omega
  · obtain ⟨c, conn, deadline, hconn, hbusy⟩ := h.called_of_rests hquiet hrests
    have hlt := h.lt_deadline_of_rests hrests hconn hbusy
    refine ⟨conn, List.mem_of_getElem? hconn, ?_⟩
    simp only [Connection.remaining, hbusy]
    omega

/-- Whether an event is neither a new operation nor another order of members. -/
def Event.proceeds : Event → Bool
  | ask _ => true
  | own (.start _) | own (.rearrange _ _) => false
  | own _ => true

/-- **Every event leaves less to do**, while an operation is in flight. -/
theorem Fit.before (h : g.Fit limit) (hquiet : ¬ g.system.Quiet) (hm : g.Move e g')
    (hproceeds : e.proceeds = true) (h' : g'.Fit limit) : g'.Before g := by
  cases hm with
  | @ask t hub access =>
    refine before_of_patience rfl rfl (Nat.add_lt_add_right ?_ _)
    have hlength := h'.length_visits_le
    simp only [List.length_append, List.length_singleton] at hlength ⊢
    omega
  | @own e s hm hadmits hclock =>
    cases e with
    | act | enter | finish | expire => exact before_of_system (hm.before rfl)
    | pass nanos =>
      have hlt := h.remaining_lt hquiet (hclock nanos rfl)
      cases hm with
      | pass => exact before_of_patience rfl rfl (Nat.add_lt_add_left hlt _)
      | answer _ hreturn => rcases hreturn with heq | heq <;> cases heq
    | start | rearrange => cases hproceeds

/-! ## All operations return -/

/-- Whether an event is another order of the members of a registry. -/
def Event.rearranges : Event → Bool
  | own (.rearrange _ _) => true
  | _ => false

/-- However the run goes on without new operations, all that were started have returned after
finitely many events, and until then something can happen that no sink is needed for. The order of
the members of a registry may change at any time. -/
inductive Returns : Guarded → Prop
  | all {g : Guarded} (hquiet : g.system.Quiet) : Returns g
  | later {g : Guarded} (hgoes : ∃ e g', e.unaided = true ∧ g.step e = some g')
      (hnext : ∀ es e g', (∀ e' ∈ es, e'.rearranges = true) → e.proceeds = true →
        g.run (es ++ [e]) = some g' → Returns g') : Returns g

theorem givesHandle_of_ne_start (h : ∀ op, e ≠ .own (.start op)) : g.givesHandle e = true := by
  unfold givesHandle
  split
  · exact absurd rfl (h _)
  · rfl

/-- Another order of members changes nothing that is left to do. -/
theorem Fit.rearranged {es : List Event} (h : g.Fit limit) (hes : ∀ e ∈ es, e.rearranges = true)
    (hrun : g.run es = some g') :
    g'.Fit limit ∧ g'.measure = g.measure ∧ (g'.system.Quiet → g.system.Quiet) := by
  induction es generalizing g with
  | nil =>
    obtain rfl := Option.some.inj hrun
    exact ⟨h, rfl, id⟩
  | cons e es ih =>
    obtain ⟨g₁, hstep, hrest⟩ := Option.bind_eq_some_iff.mp hrun
    have hm := move_of_step hstep
    have he := hes e (.head _)
    have h₁ := h.move (givesHandle_of_ne_start (by rintro op rfl; cases he)) hm
    obtain ⟨hfit, hmeasure, hquiet⟩ := ih h₁ (fun e he => hes e (.tail _ he)) hrest
    cases hm with
    | ask => cases he
    | @own e s hm =>
      cases hm with
      | rearrange => exact ⟨hfit, hmeasure, hquiet⟩
      | start | ask | go | passOver | call | pass => cases he
      | answer _ hreturn => rcases hreturn with rfl | rfl <;> cases he

/-- **All operations return.** -/
theorem Fit.returns (h : g.Fit limit) : g.Returns := by
  induction g using before_wf.induction with
  | _ g ih =>
    by_cases hquiet : g.system.Quiet
    · exact .all hquiet
    · refine .later h.goesOn fun es e g' hes he hrun => ?_
      obtain ⟨g₁, hrun₁, hrest⟩ := Option.bind_eq_some_iff.mp (g.run_append es [e] ▸ hrun)
      obtain ⟨h₁, hmeasure, hquiet₁⟩ := h.rearranged hes hrun₁
      obtain ⟨g₂, hstep, hend⟩ := Option.bind_eq_some_iff.mp hrest
      obtain rfl := Option.some.inj hend
      have hm := move_of_step hstep
      have h₂ := h₁.move (givesHandle_of_ne_start (by rintro op rfl; cases he)) hm
      have hbefore := h₁.before (mt hquiet₁ hquiet) hm he h₂
      unfold Before at hbefore
      rw [hmeasure] at hbefore
      exact ih g₂ hbefore h₂

/-! ## Nobody waits in a circle -/

/-- Who may wait or have a lock: an operation, or an errand of one, by its place in the line of a
connection. The errands of an operation are carried out beside each other. -/
inductive Agent
  | operation (t : TaskId)
  | errand (c : ConnectionId) (place : Nat)

inductive Lock
  | registry (hub : HubId)
  | connection (c : ConnectionId)

/-- An operation has the lock of a registry; the first errand in the line of a connection has the
lock of the connection. -/
inductive Holds (g : Guarded) : Agent → Lock → Prop
  | registry {t : TaskId} {hub : HubId} {access : Access} (hvisit : ⟨t, hub, access⟩ ∈ g.visits)
      (hholds : g.holds ⟨t, hub, access⟩ = true) : Holds g (.operation t) (.registry hub)
  | connection {c : ConnectionId} {conn : Connection} (hconn : g.system.connections[c]? = some conn)
      (hline : conn.line ≠ []) : Holds g (.errand c 0) (.connection c)

/-- An operation waits for the lock of a registry; every other errand in the line of a connection
waits for the lock of the connection. -/
inductive Awaits (g : Guarded) : Agent → Lock → Prop
  | registry {t : TaskId} {hub : HubId} {access : Access} (hvisit : ⟨t, hub, access⟩ ∈ g.visits)
      (hholds : g.holds ⟨t, hub, access⟩ = false) : Awaits g (.operation t) (.registry hub)
  | connection {c : ConnectionId} {conn : Connection} {place : Nat}
      (hconn : g.system.connections[c]? = some conn) (hpos : 0 < place)
      (hplace : place < conn.line.length) : Awaits g (.errand c place) (.connection c)

/-- One waits for another: for a lock that the other has, or an operation for its errand to end. -/
inductive WaitsFor (g : Guarded) : Agent → Agent → Prop
  | lock {a b : Agent} {l : Lock} (ha : g.Awaits a l) (hb : g.Holds b l) : WaitsFor g a b
  | errand {t : TaskId} {c : ConnectionId} {conn : Connection} {place : Nat} {errand : Errand}
      (hconn : g.system.connections[c]? = some conn)
      (hturn : conn.line[place]? = some ⟨t, errand⟩) : WaitsFor g (.operation t) (.errand c place)

/-- **Who has a lock waits for nobody**, neither for another lock nor for an errand. -/
theorem Fit.not_waitsFor_of_holds (h : g.Fit limit) {a b : Agent} {l : Lock}
    (hholds : g.Holds a l) : ¬ g.WaitsFor a b := by
  intro hwaits
  cases hholds with
  | @registry t hub access hvisit hholds =>
    cases hwaits with
    | lock ha =>
      cases ha with
      | registry hvisit' hnot =>
        -- it stands in the line once
        have hsame := List.inj_on_of_nodup_map h.once hvisit hvisit' rfl
        rw [← hsame, hholds] at hnot
        cases hnot
    | errand hconn hturn =>
      have howed := System.mem_owing_of_line hconn (List.mem_of_getElem? hturn)
      rw [h.live.sound.owing_of_access (h.needs _ hvisit)] at howed
      cases howed
  | connection =>
    cases hwaits with
    | lock ha =>
      cases ha with
      | connection _ hpos => exact absurd hpos (Nat.lt_irrefl 0)

theorem next_of_circle {α : Type} {r : α → α → Prop} {a : α} (h : Relation.TransGen r a a) :
    ∃ b, r a b ∧ Relation.TransGen r b b := by
  obtain ⟨b, hab, hba⟩ := Relation.TransGen.head'_iff.mp h
  exact ⟨b, hab, Relation.TransGen.tail' hba hab⟩

/-- **Nobody waits in a circle.** -/
theorem Fit.acyclic (h : g.Fit limit) (a : Agent) : ¬ Relation.TransGen g.WaitsFor a a := by
  have hholder {a : Agent} {l : Lock} (ha : g.Holds a l) : ¬ Relation.TransGen g.WaitsFor a a :=
    fun hcircle => by
      obtain ⟨b, hwaits, -⟩ := next_of_circle hcircle
      exact h.not_waitsFor_of_holds ha hwaits
  intro hcircle
  obtain ⟨b, hwaits, hcircle⟩ := next_of_circle hcircle
  cases hwaits with
  | lock _ hb => exact hholder hb hcircle
  | errand =>
    -- an errand waits for a lock only
    obtain ⟨b', hwaits', hcircle'⟩ := next_of_circle hcircle
    cases hwaits' with
    | lock _ hb => exact hholder hb hcircle'

/-! ## The operations of a run -/

/-- **Hub operations always return.** Whatever operations were started on whatever connections: they
all return after finitely many events, whatever the sinks do; nobody waits in a circle; and every
call of a sink that is under way has a deadline, no further off than the time limit of its registry,
which is some time, and has ended when the clock is past it. -/
theorem operations_return {timeouts : List Duration} {es : List Event}
    (hgiven : (init timeouts).givesHandles es = true) (hrun : (init timeouts).run es = some g) :
    g.Returns ∧ (∀ a, ¬ Relation.TransGen g.WaitsFor a a) ∧
      ∀ {c : ConnectionId} {conn : Connection} {turn : Turn} {rest : List Turn} {deadline : Nat},
        g.system.connections[c]? = some conn → conn.line = turn :: rest →
        conn.deadline = some deadline →
        conn.timeout = (System.init timeouts).timeout conn.hub ∧ 0 < conn.timeout.nanos ∧
          g.system.now ≤ deadline ∧ deadline ≤ g.system.now + conn.timeout.nanos ∧
          ∀ es' g', g.givesHandles es' = true → g.run es' = some g' →
            deadline < g'.system.now → System.Over g.system g'.system c turn := by
  have hfit : g.Fit (System.init timeouts).timeout := fit_run (fit_init timeouts) hgiven hrun
  refine ⟨hfit.returns, hfit.acyclic, fun {c conn turn rest deadline} hconn hline hbusy => ?_⟩
  have hlimit := hfit.timely.issued hconn
  obtain ⟨hnow, hdeadline⟩ := hfit.timely.called hconn hbusy
  refine ⟨hlimit, ?_, hnow, hdeadline, fun es' g' hgiven' hrun' hlate => ?_⟩
  · rw [hlimit]
    exact System.timeout_init_pos timeouts conn.hub
  · exact hfit.over_run hgiven' hrun' hconn hline hbusy hlate

/-- Two broadcasts write to two connections and get in line there in different orders, so that each
stands behind the other once; both sinks are called and do not answer. One operation has the lock of
the other registry, and one waits for it. -/
def crossing : List Event :=
  [.own (.start (.register 0)), .ask 0, .own (.act 0),
    .own (.start (.register 0)), .ask 1, .own (.act 1),
    .own (.start (.broadcast 0 [1] none)), .own (.start (.broadcast 0 [2] none)), .ask 2, .ask 3,
    .own (.act 2), .own (.act 3), .own (.act 2), .own (.act 3), .own (.act 3), .own (.act 2),
    .own (.enter 0), .own (.enter 1),
    .own (.start (.unregister 1 0)), .own (.start (.count 1)), .ask 4, .ask 5]

/-- The sinks never answer; the calls are cut off, and others are made. -/
def cutOffs : List Event :=
  [.own (.act 4), .own (.act 5), .own (.act 4), .own (.pass 50000000), .own (.expire 0),
    .own (.expire 1), .own (.enter 0), .own (.enter 1), .own (.pass 50000000)]

/-- All of them return. -/
theorem operations_return_crossing : ∃ g : Guarded,
    (init [.ofMillis 50, .zero]).givesHandles crossing = true ∧
    (init [.ofMillis 50, .zero]).run crossing = some g ∧ ¬ g.system.Quiet ∧ g.Returns ∧
    g.WaitsFor (.operation 5) (.operation 4) ∧ g.WaitsFor (.operation 2) (.errand 1 1) ∧
    g.WaitsFor (.errand 1 1) (.errand 1 0) ∧
    ¬ Relation.TransGen g.WaitsFor (.operation 2) (.operation 2) ∧
    ∃ g', g.run cutOffs = some g' ∧ System.Over g.system g'.system 0 ⟨2, .send [1]⟩ := by
  obtain ⟨hreturns, hacyclic, hcalls⟩ :=
    @operations_return _ [.ofMillis 50, .zero] crossing (by decide) rfl
  refine ⟨_, by decide, rfl, by decide, hreturns, ?_, ?_, ?_, hacyclic _, _, rfl, ?_⟩
  · exact .lock (@Awaits.registry _ 5 1 .look (by decide) (by decide))
      (@Holds.registry _ 4 1 .change (by decide) (by decide))
  · exact .errand rfl rfl
  · exact .lock (.connection rfl (by decide) (by decide)) (.connection rfl (by decide))
  · exact (hcalls (c := 0) rfl rfl rfl).2.2.2.2 cutOffs _ (by decide) rfl (by decide)

end Guarded

end UserDirectory.Hub

import Mathlib.Data.List.Basic
import UserDirectory.Proofs.Hub.Progress

/-!
# The operation in flight

`Issued` follows an operation that is issued while nothing else is in flight, to the state in which
it has returned: everything noted meanwhile is noted of it, it writes to those whom it finds, and a
member leaves only if the operation takes it out or a write to it fails. What a sink accepts of it,
if it takes every frame in time, is the frame that the operation has for the connection
(`Issued.accepted`).
-/

namespace UserDirectory.Hub

namespace Operation

/-- The frame that an operation has for a connection among the members. -/
def frameFor? (c : ConnectionId) : Operation → Option Octets
  | broadcast _ payload except => if except = some c then none else some payload
  | sendTo _ d payload => if d = c then some payload else none
  | _ => none

/-- Whether an operation takes a connection out. -/
def ends (c : ConnectionId) : Operation → Bool
  | unregister _ d => c == d
  | closeAll _ => true
  | _ => false

def registers : Operation → Bool
  | register _ => true
  | _ => false

end Operation

namespace System

/-! ## While no operation is started -/

/-- `s.Becomes s'`: events by which no operation is started lead from `s` to `s'`. -/
def Becomes (s s' : System) : Prop :=
  ∃ es, (∀ e ∈ es, ∀ op, e ≠ .start op) ∧ s.run es = some s'

/-- A task that has ended, or that was not begun. -/
def AtRest (s : System) (t : TaskId) : Prop :=
  ∀ op p, s.status t = some (op, p) → ∃ outcome, p = .finished outcome

theorem Sound.owing_of_atRest {s : System} (h : s.Sound) {t : TaskId} (ht : s.AtRest t) :
    s.owing t = [] := by
  cases hstatus : s.status t with
  | none => exact (h.unbegun hstatus).1
  | some x =>
    obtain ⟨op, p⟩ := x
    obtain ⟨outcome, rfl⟩ := ht op p hstatus
    cases h.standing hstatus with
    | finished howing => exact howing

section AtRest

variable {s s' : System} {e : Event} {t : TaskId}

theorem Went.not_atRest {op : Operation} {p p' : Progress} {s₁ : System}
    {asks : List (ConnectionId × Errand)} (h : Went s s' t op p s₁ p' asks) : ¬ s.AtRest t := by
  intro ht
  obtain ⟨outcome, rfl⟩ := ht op p h.status
  cases h.going

/-- A task at rest rests on. -/
theorem AtRest.move (hs : s.Sound) (ht : s.AtRest t) (hstart : ∀ op, e ≠ .start op)
    (hm : s.Move e s') : s'.AtRest t := by
  cases hm.advance hs.lawful t with
  | rested hstatus => exact fun op p h => ht op p (hstatus.symm.trans h)
  | begun _ _ _ _ hbegun => exact absurd hbegun (hstart _)
  | went _ hwent => exact absurd ht hwent.not_atRest
  | ended result _ howing =>
    rw [hs.owing_of_atRest ht] at howing
    exact absurd howing.symm.eq_nil (List.cons_ne_nil _ _)

theorem atRest_of_returned (h : (s.outcome? t).isSome) : s.AtRest t := by
  intro op p hstatus
  obtain ⟨outcome, houtcome⟩ := Option.isSome_iff_exists.mp h
  obtain ⟨op', hfinished⟩ := outcome?_eq_some_iff.mp houtcome
  obtain ⟨-, rfl⟩ := Prod.mk.inj (Option.some.inj (hstatus.symm.trans hfinished))
  exact ⟨outcome, rfl⟩

theorem Quiet.atRest (h : s.Quiet) (t : TaskId) : s.AtRest t := by
  intro op p hstatus
  obtain ⟨task, htask, -⟩ := status_eq_some_iff.mp hstatus
  exact atRest_of_returned (h t (List.getElem?_eq_some_iff.mp htask).1) op p hstatus

end AtRest

/-! ## Members -/

/-- **Members change only when a task goes on**, and else no task begins. -/
theorem Move.went_or_kept {s s' : System} {e : Event} (h : s.Move e s')
    (hstart : ∀ op, e ≠ .start op) :
    (∃ t op p s₁ p' asks, Went s s' t op p s₁ p' asks ∧ s'.connections = s₁.connections) ∨
    (∀ hub d, d ∈ s'.members hub ↔ d ∈ s.members hub) ∧
      s'.connections.length = s.connections.length ∧
      ∀ t op, s.status t = some (op, .starting) → s'.status t = some (op, .starting) := by
  have hafter (s : System) (c : ConnectionId) (turn : Turn) (o : Occurrence) (result : Sent)
      (t : TaskId) (op : Operation) (h : s.status t = some (op, .starting)) :
      ((s.note c turn.task o).conclude c turn result).status t = some (op, .starting) := by
    obtain ⟨task, htask, rfl, hp⟩ := status_eq_some_iff.mp h
    have hstarting : Progress.after c turn.errand result .starting = .starting := by
      cases turn.errand <;> rfl
    by_cases ht : turn.task = t
    · simp [status, ht, htask, hp, hstarting]
    · simp [status, ht, htask, hp]
  cases h with
  | start op => exact absurd rfl (hstart op)
  | @ask t task c errand asks htask hasks hlt =>
    refine .inr ⟨fun _ _ => .rfl, by simp, fun u op hu => ?_⟩
    by_cases ht : t = u
    · subst ht
      simpa [status, htask] using hu
    · simpa [status, ht] using hu
  | go htask hasks hgoing => exact .inl ⟨_, _, _, _, _, _, hgoing.went htask hasks, rfl⟩
  | passOver | answer => exact .inr ⟨fun _ _ => .rfl, by simp, fun _ _ => hafter _ _ _ _ _ _ _⟩
  | call => exact .inr ⟨fun _ _ => .rfl, by simp, fun _ _ => id⟩
  | pass => exact .inr ⟨fun _ _ => .rfl, rfl, fun _ _ => id⟩
  | @rearrange hub members hperm =>
    refine .inr ⟨fun other d => ?_, rfl, fun _ _ => id⟩
    rw [members_setMembers]
    split
    · rename_i hhub
      rw [hhub.1]
      exact hperm.mem_iff
    · rfl

/-- Who is a member after an operation has taken its first step. -/
def StaysFor (s : System) (hub : HubId) (op : Operation) (d : ConnectionId) : Prop :=
  d ∈ s.members hub ∧ op.ends d = false ∨ op.registers = true ∧ d = s.connections.length

theorem Going.members_of_starting {s s₁ : System} {op : Operation} {p' : Progress}
    {asks : List (ConnectionId × Errand)} (h : Going s op .starting s₁ p' asks)
    (hpresent : op.hub < s.hubs.length) (d : ConnectionId) :
    d ∈ s₁.members op.hub ↔ s.StaysFor op.hub op d := by
  cases h with
  | register hub =>
    have hhub : hub < s.hubs.length := hpresent
    simp [StaysFor, Operation.hub, Operation.ends, Operation.registers, members_enroll, hhub]
  | unregister hub c =>
    simp [StaysFor, Operation.hub, Operation.ends, Operation.registers,
      mem_members_remove]
  | closeAll hub =>
    simp [StaysFor, Operation.hub, Operation.ends, Operation.registers, mem_members_clear]
  | closeNone hnone =>
    simp [StaysFor, Operation.hub, Operation.ends, Operation.registers, hnone]
  | broadcastNone | broadcast | sendTo | contains | count =>
    simp [StaysFor, Operation.hub, Operation.ends, Operation.registers]

theorem Going.length_of_starting {s s₁ : System} {op : Operation} {p' : Progress}
    {asks : List (ConnectionId × Errand)} (h : Going s op .starting s₁ p' asks) :
    s₁.connections.length = s.connections.length + if op.registers then 1 else 0 := by
  cases h with
  | register => simp [enroll, setMembers, Operation.registers]
  | unregister | closeAll | closeNone | broadcastNone | broadcast | sendTo | contains | count => rfl

/-- A task that has begun takes out only those to whom its write failed. -/
theorem Standing.lost_of_close {s s₁ : System} {t : TaskId} {op : Operation} {p p' : Progress}
    {asks : List (ConnectionId × Errand)} {c : ConnectionId} (h : Standing s t op p)
    (hgoing : Going s op p s₁ p' asks) (hp : p ≠ .starting) (hask : (c, .close) ∈ asks) :
    Lost (s.results t) c := by
  cases h with
  | starting => exact absurd rfl hp
  | reviewing payload except howing hsub =>
    cases hgoing with
    | prune _ _ d reason =>
      obtain rfl : c = d := by simpa using hask
      exact ⟨reason, hsub _ (List.mem_cons_self ..)⟩
    | reviewed | reviewOk | reviewClosed => cases hask
  | failed payload howing hresults =>
    cases hgoing with
    | dismiss =>
      obtain ⟨rfl, -⟩ := Prod.mk.inj (List.mem_singleton.mp hask)
      exact ⟨_, by rw [hresults]; exact .head _⟩
  | writing | pruning | sending | dismissing | leaving | closingAll | finished => cases hgoing

/-! ## The operation in flight -/

/-- How far the operation `op`, which was issued in `s`, has come in `x`, and what has become of the
members meanwhile. -/
inductive Course (s : System) (op : Operation) (x : System) : Prop
  | waiting (hstatus : x.status s.tasks.length = some (op, .starting))
      (hmembers : ∀ d, d ∈ x.members op.hub ↔ d ∈ s.members op.hub)
      (hlength : x.connections.length = s.connections.length)
  | begun {found : List ConnectionId} (hbound : Bound x s.tasks.length op found)
      (hfound : ∀ d, d ∈ found ↔ d ∈ s.targets op)
      (hmembers : ∀ d, d ∈ x.members op.hub → s.StaysFor op.hub op d)
      (hstay : ∀ d, s.StaysFor op.hub op d →
        d ∈ x.members op.hub ∨ Lost (x.results s.tasks.length) d)
      (hlength : x.connections.length = s.connections.length + if op.registers then 1 else 0)

/-- `x` is what became of `s` since the operation `op` was issued in it, while nothing else was in
flight. -/
structure Issued (s : System) (op : Operation) (x : System) : Prop where
  sound : x.Sound
  kept : x.Kept op.hub
  others : ∀ t, s.tasks.length ≠ t → x.AtRest t
  noted : ∃ new, x.log = s.log ++ new ∧ ∀ e ∈ new, e.task = s.tasks.length
  course : Course s op x

section Issued

variable {s x x' : System} {op : Operation} {e : Event}

theorem Lost.move (hm : x.Move e x') {t : TaskId} {d : ConnectionId}
    (h : Lost (x.results t) d) : Lost (x'.results t) d := by
  obtain ⟨reason, hmem⟩ := h
  refine ⟨reason, ?_⟩
  obtain hlog | ⟨c, turn, o, -, -, hlog⟩ := hm.log
  · rwa [results_congr hlog]
  · rw [results_note hlog]
    exact List.mem_append_left _ hmem

theorem mem_targets_congr (h : ∀ d, d ∈ x.members op.hub ↔ d ∈ s.members op.hub)
    (d : ConnectionId) : d ∈ x.targets op ↔ d ∈ s.targets op := by
  cases op with
  | broadcast hub payload except =>
    simp only [targets, List.mem_filter]
    exact and_congr_left' (h d)
  | register | unregister | sendTo | closeAll | contains | count => rfl

theorem StaysFor.congr (hlength : x.connections.length = s.connections.length)
    (h : ∀ d, d ∈ x.members op.hub ↔ d ∈ s.members op.hub) (d : ConnectionId) :
    x.StaysFor op.hub op d ↔ s.StaysFor op.hub op d := by
  unfold StaysFor
  rw [hlength, h]

theorem Course.move (hx : x.Sound) (hk : x.Kept op.hub)
    (hothers : ∀ t, s.tasks.length ≠ t → x.AtRest t) (hstart : ∀ op, e ≠ .start op)
    (hm : x.Move e x') (h : Course s op x) : Course s op x' := by
  -- who goes on is the task of the operation
  have honly {t : TaskId} {op' : Operation} {p p' : Progress} {s₁ : System}
      {asks : List (ConnectionId × Errand)} (hwent : Went x x' t op' p s₁ p' asks) :
      s.tasks.length = t :=
    Decidable.byContradiction fun hne => hwent.not_atRest (hothers t hne)
  cases h with
  | waiting hstatus hmembers hlength =>
    obtain ⟨t, op', p, s₁, p', asks, hwent, hconns⟩ | ⟨hsame, hlength', hstarting⟩ :=
      hm.went_or_kept hstart
    · obtain rfl := honly hwent
      obtain ⟨rfl, rfl⟩ := Prod.mk.inj (Option.some.inj (hstatus.symm.trans hwent.status))
      have hstanding := hx.standing hstatus
      have hafter (d : ConnectionId) : d ∈ x'.members op.hub ↔ s.StaysFor op.hub op d := by
        rw [members_congr hwent.hubs, hwent.going.members_of_starting hk.present,
          StaysFor.congr hlength hmembers]
      have hbound : Bound x' s.tasks.length op (x.targets op) := by
        refine ⟨⟨p', hwent.status', hwent.going.ne_starting⟩, ?_⟩
        rw [hwent.reach hstanding, if_pos rfl, hstanding.reach_starting]
        exact .refl _
      refine .begun hbound (mem_targets_congr hmembers) (fun d => (hafter d).mp)
        (fun d hd => .inl ((hafter d).mpr hd)) ?_
      rw [hconns, hwent.going.length_of_starting, hlength]
    · exact .waiting (hstarting _ _ hstatus) (fun d => (hsame _ d).trans (hmembers d))
        (hlength'.trans hlength)
  | begun hbound hfound hmembers hstay hlength =>
    have hlost {d : ConnectionId} := Lost.move hm (t := s.tasks.length) (d := d)
    obtain ⟨t, op', p, s₁, p', asks, hwent, hconns⟩ | ⟨hsame, hlength', -⟩ :=
      hm.went_or_kept hstart
    · obtain rfl := honly hwent
      obtain ⟨p₀, hstatus, hp⟩ := hbound.begun
      obtain ⟨rfl, rfl⟩ := Prod.mk.inj (Option.some.inj (hstatus.symm.trans hwent.status))
      obtain ⟨hconns₁, hsub⟩ := hwent.going.members_of_begun hp
      have heq := members_congr hwent.hubs op.hub
      refine .begun (hbound.move hx hm) hfound (fun d hd => hmembers d (hsub _ d (heq ▸ hd)))
        (fun d hd => ?_) ?_
      · obtain hmem | hd := hstay d hd
        · -- who leaves now is one to whom the write failed
          by_cases hmem' : d ∈ x'.members op.hub
          · exact .inl hmem'
          · have hask := hwent.going.close_of_left hmem (heq ▸ hmem')
            exact .inr (hlost ((hx.standing hstatus).lost_of_close hwent.going hp hask))
        · exact .inr (hlost hd)
      · rw [hconns, hconns₁, hlength]
    · exact .begun (hbound.move hx hm) hfound (fun d hd => hmembers d ((hsame _ d).mp hd))
        (fun d hd => (hstay d hd).imp (hsame _ d).mpr hlost) (hlength'.trans hlength)

/-- **Every event keeps to the course of the operation in flight.** -/
theorem Issued.move (h : Issued s op x) (hstart : ∀ op, e ≠ .start op) (hm : x.Move e x') :
    Issued s op x' where
  sound := sound_move h.sound hm
  kept := by
    refine kept_move h.kept h.sound ?_ hm
    cases e with
    | start op => exact absurd rfl (hstart op)
    | act | enter | finish | expire | pass | rearrange => rfl
  others t ht := (h.others t ht).move h.sound hstart hm
  noted := by
    obtain ⟨new, hnew, htasks⟩ := h.noted
    obtain hlog | ⟨c, turn, o, howed, -, hlog⟩ := hm.log
    · exact ⟨new, hlog.trans hnew, htasks⟩
    · have hturn : s.tasks.length = turn.task := Decidable.byContradiction fun hne => by
        rw [h.sound.owing_of_atRest (h.others _ hne)] at howed
        cases howed
      refine ⟨new ++ [⟨c, turn.task, o⟩], ?_, fun e he => ?_⟩
      · rw [hlog, hnew, List.append_assoc]
      · obtain he | he := List.mem_append.mp he
        · exact htasks e he
        · rw [List.mem_singleton.mp he]
          exact hturn.symm
  course := h.course.move h.sound h.kept h.others hstart hm

theorem issued_launch (hs : s.Sound) (hk : s.Kept op.hub) (hquiet : s.Quiet)
    (hhandle : ∀ d, op.handle? = some d → s.home? d = some op.hub) :
    Issued s op (s.launch op) where
  sound := sound_move hs (.start op)
  kept := by
    refine kept_move hk hs ?_ (.start op)
    cases hop : op.handle? with
    | none => simp [admits, hop]
    | some d => simp [admits, hop, hhandle d hop]
  others t ht op' p hstatus := by
    refine hquiet.atRest t op' p ?_
    have hother : (s.launch op).tasks[t]? = s.tasks[t]? := by
      simp only [launch, List.getElem?_append, List.getElem?_singleton]
      split
      · rfl
      · rw [if_neg (by omega), List.getElem?_eq_none (by omega)]
    simpa [status, hother] using hstatus
  noted := ⟨[], (List.append_nil _).symm, fun e he => by cases he⟩
  course := .waiting (by simp [status, launch]) (fun d => .rfl) rfl

end Issued

/-! ## What comes of it -/

end System

/-- Whether an occurrence is none by which a frame is lost. -/
def Occurrence.isTaken : Occurrence → Bool
  | answered (.send _) result => result == .ok
  | _ => true

namespace System

/-- Every write on a connection that has ended was taken by the sink, and before its deadline. -/
def Reliable (s : System) (c : ConnectionId) : Prop :=
  ∀ e ∈ s.log, e.connection = c → e.occurrence.isTaken = true

instance (s : System) (c : ConnectionId) : Decidable (s.Reliable c) :=
  inferInstanceAs (Decidable (∀ e ∈ s.log, e.connection = c → e.occurrence.isTaken = true))

theorem mem_history_iff {s : System} {c : ConnectionId} {t : TaskId} {o : Occurrence} :
    (t, o) ∈ s.history c ↔ ⟨c, t, o⟩ ∈ s.log := by
  unfold history
  rw [List.mem_filterMap]
  constructor
  · rintro ⟨⟨d, u, o'⟩, he, heq⟩
    split at heq
    · rename_i hd
      obtain ⟨rfl, rfl⟩ := Prod.mk.inj (Option.some.inj heq)
      obtain rfl : d = c := hd
      exact he
    · cases heq
  · exact fun he => ⟨_, he, if_pos rfl⟩

theorem mem_results_iff {s : System} {t : TaskId} {c : ConnectionId} {result : Sent} :
    (c, result) ∈ s.results t ↔ ∃ o, (t, o) ∈ s.history c ∧ o.result? = some result := by
  unfold results
  rw [List.mem_filterMap]
  constructor
  · rintro ⟨⟨d, u, o⟩, he, heq⟩
    split at heq
    · rename_i hu
      obtain rfl : u = t := hu
      obtain ⟨result', hresult, heq⟩ := Option.map_eq_some_iff.mp heq
      obtain ⟨rfl, rfl⟩ := Prod.mk.inj heq
      exact ⟨o, mem_history_iff.mpr he, hresult⟩
    · cases heq
  · rintro ⟨o, ho, hresult⟩
    exact ⟨_, mem_history_iff.mp ho, by simp [hresult]⟩

theorem Reliable.not_lost {s : System} {c : ConnectionId} (h : s.Reliable c) (t : TaskId) :
    ¬ Lost (s.results t) c := by
  rintro ⟨reason, hmem⟩
  obtain ⟨o, ho, hresult⟩ := mem_results_iff.mp hmem
  match o, hresult with
  | .answered (.send payload) _, rfl =>
    have htaken := h _ (mem_history_iff.mp ho) rfl
    simp [Occurrence.isTaken] at htaken

end System

theorem Conduct.closed_of_passedOver {history : List (TaskId × Occurrence)} {closed : Bool}
    {call : Option Turn} {t : TaskId} {errand : Errand} (h : Conduct history closed call)
    (hmem : (t, .passedOver errand) ∈ history) : closed = true := by
  induction h with
  | nil => cases hmem
  | called turn _ ih =>
    obtain hmem | hmem := List.mem_append.mp hmem
    · cases ih hmem
    · simp at hmem
  | answered result _ ih =>
    obtain hmem | hmem := List.mem_append.mp hmem
    · exact ih hmem
    · simp at hmem
  | passedOver => rfl

theorem Conduct.called_of_answered {history : List (TaskId × Occurrence)} {closed : Bool}
    {call : Option Turn} {t : TaskId} {errand : Errand} {result : Sent}
    (h : Conduct history closed call) (hmem : (t, .answered errand result) ∈ history) :
    (t, .called errand) ∈ history := by
  induction h with
  | nil => cases hmem
  | called turn _ ih | passedOver _ _ _ ih =>
    obtain hmem | hmem := List.mem_append.mp hmem
    · exact List.mem_append_left _ (ih hmem)
    · simp at hmem
  | answered _ h ih =>
    obtain hmem | hlast := List.mem_append.mp hmem
    · exact List.mem_append_left _ (ih hmem)
    · -- the call that is answered now was under way, so it was noted last
      cases h with
      | called turn =>
        obtain ⟨rfl, heq⟩ := Prod.mk.inj (List.mem_singleton.mp hlast)
        obtain ⟨rfl, -⟩ := Occurrence.answered.inj heq
        exact List.mem_append_left _ (List.mem_append_right _ (.head _))

namespace System

theorem Sound.conduct {s : System} (h : s.Sound) (c : ConnectionId) :
    ∃ call, Conduct (s.history c) (s.isClosed c) call := by
  by_cases hlt : c < s.connections.length
  · have hconn := List.getElem?_eq_getElem hlt
    rw [isClosed_of_getElem? hconn]
    cases h.lawful.follows hconn with
    | idle _ hconduct => exact ⟨_, hconduct⟩
    | busy _ _ hconduct => exact ⟨_, hconduct⟩
  · rw [h.lawful.blank (Nat.le_of_not_lt hlt)]
    have hopen : s.isClosed c = false := by simp [isClosed, hlt]
    exact ⟨none, hopen ▸ .nil⟩

/-- A write that has ended on a reliable connection that is open has succeeded. -/
theorem Reliable.result_eq_ok {s : System} {c : ConnectionId} {t : TaskId} {result : Sent}
    (h : s.Reliable c) (hs : s.Sound) (hopen : s.isClosed c ≠ true)
    (hresult : (c, result) ∈ s.results t) : result = .ok := by
  obtain ⟨o, ho, hresult⟩ := mem_results_iff.mp hresult
  match o, hresult with
  | .answered (.send payload) _, rfl => exact eq_of_beq (h _ (mem_history_iff.mp ho) rfl)
  | .passedOver (.send payload), rfl =>
    obtain ⟨call, hconduct⟩ := hs.conduct c
    exact absurd (hconduct.closed_of_passedOver ho) hopen

section Issued

variable {s x : System} {op : Operation} {c : ConnectionId}

theorem mem_targets_iff : c ∈ s.targets op ↔
    (op.frameFor? c).isSome ∧ (c ∈ s.members op.hub ∨ op.handle? = some c) := by
  cases op with
  | broadcast hub payload except =>
    by_cases hexcept : except = some c
    · simp [targets, Operation.frameFor?, hexcept]
    · have hother : some c ≠ except := Ne.symm hexcept
      simp [targets, Operation.frameFor?, Operation.hub, Operation.handle?, hexcept, hother]
  | sendTo hub d payload =>
    by_cases hd : d = c
    · simp [targets, Operation.frameFor?, Operation.handle?, hd]
    · simp [targets, Operation.frameFor?, hd, Ne.symm hd]
  | register | unregister | closeAll | contains | count => simp [targets, Operation.frameFor?]

theorem ends_of_frameFor? (h : (op.frameFor? c).isSome) : op.ends c = false := by
  cases op with
  | broadcast | sendTo => rfl
  | register | unregister | closeAll | contains | count => cases h

/-- Who is a member once the operation has returned. -/
theorem Issued.mem_members_iff (h : Issued s op x) (hquiet : x.Quiet) (hc : x.Reliable c) :
    c ∈ x.members op.hub ↔ s.StaysFor op.hub op c := by
  cases h.course with
  | waiting hstatus =>
    obtain ⟨outcome, hfinished⟩ := hquiet.atRest _ _ _ hstatus
    cases hfinished
  | begun _ _ hmembers hstay =>
    exact ⟨hmembers c, fun hd => (hstay c hd).resolve_right (hc.not_lost _)⟩

theorem Issued.length (h : Issued s op x) (hquiet : x.Quiet) :
    x.connections.length = s.connections.length + if op.registers then 1 else 0 := by
  cases h.course with
  | waiting hstatus =>
    obtain ⟨outcome, hfinished⟩ := hquiet.atRest _ _ _ hstatus
    cases hfinished
  | begun _ _ _ _ hlength => exact hlength

/-- The connections to which the operation has written once it has returned. -/
theorem Issued.exists_result_iff (h : Issued s op x) (hquiet : x.Quiet) :
    (∃ result, (c, result) ∈ x.results s.tasks.length) ↔ c ∈ s.targets op := by
  cases h.course with
  | waiting hstatus =>
    obtain ⟨outcome, hfinished⟩ := hquiet.atRest _ _ _ hstatus
    cases hfinished
  | begun hbound hfound =>
    rw [← hfound, ← hbound.reach.mem_iff, reach, hquiet.owing_eq_nil h.sound]
    simp

/-- A sink that was closed when the operation was issued accepts nothing of it. -/
theorem not_ok_of_closed (hs : s.Sound) (hx : x.Sound) (hbecomes : (s.launch op).Becomes x)
    (hclosed : s.isClosed c = true) : (c, .ok) ∉ x.results s.tasks.length := by
  intro hok
  obtain ⟨o, ho, hresult⟩ := mem_results_iff.mp hok
  obtain ⟨payload, rfl⟩ := eq_answered_of_result? hresult
  obtain ⟨call, hconduct⟩ := hx.conduct c
  have hcalled := hconduct.called_of_answered ho
  -- the call would be one of those that were made before, of which none is of this task
  have hsent : (s.tasks.length, payload) ∈ x.sends c := List.mem_filterMap.mpr ⟨_, hcalled, rfl⟩
  obtain ⟨es, -, hrun⟩ := hbecomes
  have hsends : x.sends c = s.sends c := (run_of_closed (s := s.launch op) hclosed hrun).2
  rw [hsends] at hsent
  obtain ⟨⟨t, o⟩, hmem, heq⟩ := List.mem_filterMap.mp hsent
  obtain ⟨q, hframe, heq⟩ := Option.map_eq_some_iff.mp heq
  obtain ⟨rfl, rfl⟩ := Prod.mk.inj heq
  match o, hframe with
  | .called (.send _), rfl =>
    have hpayload := payload_of_sent hs hmem rfl
    simp [payload?, op?] at hpayload

/-- A sink accepts a frame of the operation if its connection was a member, and the operation has a
frame for it. -/
theorem Issued.ok_iff (h : Issued s op x) (hs : s.Sound) (hk : s.Kept op.hub)
    (hquiet₀ : s.Quiet) (hhandle : ∀ d, op.handle? = some d → s.home? d = some op.hub)
    (hbecomes : (s.launch op).Becomes x) (hquiet : x.Quiet) (hc : x.Reliable c) :
    (c, .ok) ∈ x.results s.tasks.length ↔ c ∈ s.members op.hub ∧ (op.frameFor? c).isSome := by
  constructor
  · intro hok
    obtain ⟨hframe, hto⟩ := mem_targets_iff.mp ((h.exists_result_iff hquiet).mp ⟨_, hok⟩)
    refine ⟨Decidable.byContradiction fun hout => ?_, hframe⟩
    -- it was sent to by its handle, and it was closed
    have hhome := hhandle c (hto.resolve_left hout)
    obtain hclosed | ⟨t, howed⟩ := hk.gone hhome hout
    · exact not_ok_of_closed hs h.sound hbecomes hclosed hok
    · rw [hquiet₀.owing_eq_nil hs t] at howed
      cases howed
  · rintro ⟨hmem, hframe⟩
    obtain ⟨result, hresult⟩ :=
      (h.exists_result_iff hquiet).mpr (mem_targets_iff.mpr ⟨hframe, .inl hmem⟩)
    have hstays := (h.mem_members_iff hquiet hc).mpr (.inl ⟨hmem, ends_of_frameFor? hframe⟩)
    have hopen : x.isClosed c ≠ true := fun hclosed => (h.kept.closed hclosed).not_mem hstays
    rwa [← hc.result_eq_ok h.sound hopen hresult]

/-- What a sink accepted since the operation was issued are frames of the operation. -/
theorem Issued.exists_accepted (h : Issued s op x) (hs : s.Sound) :
    ∃ frames, x.accepted c = s.accepted c ++ frames ∧
      (∀ q ∈ frames, x.payload? s.tasks.length = some q) ∧
      frames.length = (x.results s.tasks.length).count (c, .ok) := by
  obtain ⟨new, hnew, htasks⟩ := h.noted
  have hbefore : s.results s.tasks.length = [] := (hs.unbegun (by simp [status])).2
  have hresults : x.results s.tasks.length =
      new.filterMap fun e => e.occurrence.result?.map (e.connection, ·) := by
    calc x.results s.tasks.length
        = s.results s.tasks.length ++ new.filterMap (fun e =>
            if e.task = s.tasks.length then e.occurrence.result?.map (e.connection, ·)
            else none) := by simp [results, hnew, List.filterMap_append]
      _ = _ := by
        rw [hbefore, List.nil_append]
        exact List.filterMap_congr fun e he => if_pos (htasks e he)
  refine ⟨_, by rw [accepted, hnew, List.filterMap_append]; rfl, ?_, ?_⟩
  · intro q hq
    obtain ⟨e, he, heq⟩ := List.mem_filterMap.mp hq
    split at heq
    · rename_i payload hanswered
      split at heq
      · obtain rfl := Option.some.inj heq
        rw [← htasks e he]
        refine h.sound.payload ?_ (by rw [hanswered]; rfl)
        rw [hnew]
        exact List.mem_append_right _ he
      · cases heq
    · cases heq
  · rw [hresults, List.length_filterMap_eq_countP, List.count_eq_countP, List.countP_filterMap]
    refine List.countP_congr fun e _ => ?_
    obtain ⟨d, t, o⟩ := e
    cases o with
    | called => simp [Occurrence.result?]
    | passedOver errand => cases errand <;> simp [Occurrence.result?]
    | answered errand result =>
      cases errand with
      | close => simp [Occurrence.result?]
      | send payload =>
        cases result with
        | ok => by_cases hd : d = c <;> simp [hd, Occurrence.result?]
        | failed => simp [Occurrence.result?]

theorem payload?_of_frameFor? {payload : Octets} (h : op.frameFor? c = some payload) :
    op.payload? = some payload := by
  cases op with
  | broadcast hub q except =>
    simp only [Operation.frameFor?] at h
    split at h
    · cases h
    · exact h
  | sendTo hub d q =>
    simp only [Operation.frameFor?] at h
    split at h
    · exact h
    · cases h
  | register | unregister | closeAll | contains | count => cases h

theorem Issued.op? (h : Issued s op x) : x.op? s.tasks.length = some op := by
  cases h.course with
  | waiting hstatus => exact op?_of_status hstatus
  | begun hbound =>
    obtain ⟨p, hstatus, -⟩ := hbound.begun
    exact op?_of_status hstatus

/-- **What a reliable sink accepts of an operation** is its frame for the connection, if that was a
member. -/
theorem Issued.accepted (h : Issued s op x) (hs : s.Sound) (hk : s.Kept op.hub)
    (hquiet₀ : s.Quiet) (hhandle : ∀ d, op.handle? = some d → s.home? d = some op.hub)
    (hbecomes : (s.launch op).Becomes x) (hquiet : x.Quiet) (hc : x.Reliable c) :
    x.accepted c =
      s.accepted c ++ if c ∈ s.members op.hub then (op.frameFor? c).toList else [] := by
  obtain ⟨frames, heq, hpayload, hlength⟩ := h.exists_accepted hs
  have hok := h.ok_iff hs hk hquiet₀ hhandle hbecomes hquiet hc
  have honce : (x.results s.tasks.length).count (c, .ok) ≤ 1 := by
    rw [← count_writers]
    exact List.nodup_iff_count.mp (h.sound.writers_nodup c) _
  rw [heq]
  congr 1
  by_cases hdue : c ∈ s.members op.hub ∧ (op.frameFor? c).isSome
  · obtain ⟨hmem, hframe⟩ := hdue
    obtain ⟨payload, hframe⟩ := Option.isSome_iff_exists.mp hframe
    have hpos := List.count_pos_iff.mpr (hok.mpr ⟨hmem, by simp [hframe]⟩)
    have hone : x.payload? s.tasks.length = some payload := by
      rw [payload?, h.op?]
      exact payload?_of_frameFor? hframe
    obtain hnil | hsome := eq_nil_or_singleton hone hpayload (by omega)
    · rw [hnil, List.length_nil] at hlength
      omega
    · rw [if_pos hmem, hframe, hsome]
      rfl
  · rw [List.count_eq_zero.mpr (fun hmem => hdue (hok.mp hmem))] at hlength
    rw [List.length_eq_zero_iff.mp hlength]
    by_cases hmem : c ∈ s.members op.hub
    · have hnone : op.frameFor? c = none := by simpa [hmem] using hdue
      simp [hnone]
    · rw [if_neg hmem]

end Issued

end System

end UserDirectory.Hub

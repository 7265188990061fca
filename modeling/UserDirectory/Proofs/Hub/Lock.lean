import UserDirectory.Proofs.Hub.Moves

/-!
# What happens at one connection

The lock of a connection makes everything that happens there one after another. `Change` says what a
single event can do to one connection; `Conduct` is the grammar of what is noted at it: writes, each
of which ends before anything else begins, then at most one close, and after it nothing but errands
that are passed over. That a connection follows this grammar is kept by every event, because a call
is made only by the first in line, and only while no call is under way.

A connection that is closed stays closed, and its sink is never called again.
-/

namespace UserDirectory.Hub

/-- The frame that a sink is called with. -/
def Occurrence.frame? : Occurrence → Option Octets
  | .called (.send payload) => some payload
  | _ => none

namespace System

/-- What was noted at a connection, with the tasks. -/
def history (s : System) (c : ConnectionId) : List (TaskId × Occurrence) :=
  s.log.filterMap fun e => if e.connection = c then some (e.task, e.occurrence) else none

/-- Whether closing a connection has begun. -/
def isClosed (s : System) (c : ConnectionId) : Bool := s.connections[c]?.any (·.closed)

/-- Whether closing a connection is over: it has begun, and no call of the sink is under way. -/
def isShut (s : System) (c : ConnectionId) : Bool :=
  s.connections[c]?.any fun conn => conn.closed && conn.deadline.isNone

/-- The frames that were handed to a sink, with the tasks. -/
def sends (s : System) (c : ConnectionId) : List (TaskId × Octets) :=
  (s.history c).filterMap fun x => x.2.frame?.map (x.1, ·)

theorem history_congr {s s' : System} (h : s'.log = s.log) (c : ConnectionId) :
    s'.history c = s.history c := by
  unfold history
  rw [h]

theorem history_note {s s' : System} {c : ConnectionId} {t : TaskId} {o : Occurrence}
    (h : s'.log = s.log ++ [⟨c, t, o⟩]) : s'.history c = s.history c ++ [(t, o)] := by
  simp [history, h, List.filterMap_append]

theorem history_note_ne {s s' : System} {c d : ConnectionId} {t : TaskId} {o : Occurrence}
    (h : s'.log = s.log ++ [⟨c, t, o⟩]) (hne : d ≠ c) : s'.history d = s.history d := by
  simp [history, h, List.filterMap_append, Ne.symm hne]

theorem isClosed_of_getElem? {s : System} {c : ConnectionId} {conn : Connection}
    (h : s.connections[c]? = some conn) : s.isClosed c = conn.closed := by
  simp [isClosed, h]

theorem exists_of_isClosed {s : System} {c : ConnectionId} (h : s.isClosed c = true) :
    ∃ conn, s.connections[c]? = some conn ∧ conn.closed = true := by
  cases hconn : s.connections[c]? with
  | none => simp [isClosed, hconn] at h
  | some conn => exact ⟨conn, rfl, by rwa [isClosed_of_getElem? hconn] at h⟩

theorem isShut_iff {s : System} {c : ConnectionId} :
    s.isShut c = true ↔
      ∃ conn, s.connections[c]? = some conn ∧ conn.closed = true ∧ conn.deadline = none := by
  simp [isShut, Option.any_eq_true]

theorem isClosed_of_isShut {s : System} {c : ConnectionId} (h : s.isShut c = true) :
    s.isClosed c = true := by
  obtain ⟨conn, hconn, hclosed, -⟩ := isShut_iff.mp h
  rw [isClosed_of_getElem? hconn, hclosed]

/-! ## One event at one connection -/

/-- What a single event can do to a connection and to what is noted at it. -/
inductive Change (s s' : System) (c : ConnectionId) : Prop
  | untouched (hconn' : s'.connections[c]? = s.connections[c]?)
      (hlog : s'.history c = s.history c)
  | born {hub : HubId} (hnone : s.connections.length = c)
      (hconn' : s'.connections[c]? = some { hub := hub, timeout := s.timeout hub })
      (hlog : s'.history c = s.history c)
  | joined {conn : Connection} (turn : Turn) (hconn : s.connections[c]? = some conn)
      (hconn' : s'.connections[c]? = some { conn with line := conn.line ++ [turn] })
      (hlog : s'.history c = s.history c)
  | passedOver {conn : Connection} {turn : Turn} {rest : List Turn}
      (hconn : s.connections[c]? = some conn) (hline : conn.line = turn :: rest)
      (hidle : conn.deadline = none) (hclosed : conn.closed = true)
      (hconn' : s'.connections[c]? = some { conn with line := rest, deadline := none })
      (hlog : s'.history c = s.history c ++ [(turn.task, .passedOver turn.errand)])
  | called {conn : Connection} {turn : Turn} {rest : List Turn}
      (hconn : s.connections[c]? = some conn) (hline : conn.line = turn :: rest)
      (hidle : conn.deadline = none) (hopen : conn.closed = false)
      (hconn' : s'.connections[c]? = some
        { conn with
          closed := turn.errand == .close
          deadline := some (s.now + conn.timeout.nanos) })
      (hlog : s'.history c = s.history c ++ [(turn.task, .called turn.errand)])
  | answered {conn : Connection} {turn : Turn} {rest : List Turn} {deadline : Nat} (result : Sent)
      (hconn : s.connections[c]? = some conn) (hline : conn.line = turn :: rest)
      (hbusy : conn.deadline = some deadline)
      (hconn' : s'.connections[c]? = some { conn with line := rest, deadline := none })
      (hlog : s'.history c = s.history c ++ [(turn.task, .answered turn.errand result)])

theorem Going.log {s s₁ : System} {op : Operation} {p p' : Progress}
    {asks : List (ConnectionId × Errand)} (h : Going s op p s₁ p' asks) : s₁.log = s.log := by
  cases h <;> rfl

theorem Going.connections {s s₁ : System} {op : Operation} {p p' : Progress}
    {asks : List (ConnectionId × Errand)} (h : Going s op p s₁ p' asks) :
    s₁.connections = s.connections ∨
      ∃ hub, s₁.connections = s.connections ++ [{ hub := hub, timeout := s.timeout hub }] := by
  cases h with
  | register hub => exact .inr ⟨hub, rfl⟩
  | _ => exact .inl rfl

theorem Move.change {s s' : System} {e : Event} (h : s.Move e s') (c : ConnectionId) :
    Change s s' c := by
  cases h with
  | start op => exact .untouched rfl rfl
  | pass nanos => exact .untouched rfl rfl
  | rearrange hperm => exact .untouched rfl rfl
  | @ask t task d errand asks htask hasks hlt =>
    by_cases hd : d = c
    · subst hd
      have hconn : s.connections[d]? = some s.connections[d] := List.getElem?_eq_getElem hlt
      exact .joined ⟨t, errand⟩ hconn (by simp [hconn]) rfl
    · exact .untouched (by simp [hd]) rfl
  | @go t task s₁ p asks htask hasks hgoing =>
    have hlog : s₁.history c = s.history c := history_congr hgoing.log c
    obtain hsame | ⟨hub, hnew⟩ := hgoing.connections
    · exact .untouched (by simp [hsame]) hlog
    · by_cases hc : s.connections.length = c
      · have hconn' : (s₁.setTask t p asks).connections[c]? =
            some { hub := hub, timeout := s.timeout hub } := by
          simp [hnew, ← hc]
        exact .born hc hconn' hlog
      · refine .untouched ?_ hlog
        show s₁.connections[c]? = s.connections[c]?
        rw [hnew, List.getElem?_append]
        split
        · rfl
        · have hlt : s.connections.length < c := by omega
          have hnone : s.connections[c]? = none := List.getElem?_eq_none (by omega)
          rw [hnone, List.getElem?_eq_none (by simp; omega)]
  | @passOver d conn turn rest hconn hline hidle hclosed =>
    by_cases hd : c = d
    · subst hd
      exact .passedOver hconn hline hidle hclosed (by simp [hconn, hline]) (history_note rfl)
    · exact .untouched (by simp [Ne.symm hd]) (history_note_ne rfl hd)
  | @call d conn turn rest hconn hline hidle hopen =>
    by_cases hd : c = d
    · subst hd
      exact .called hconn hline hidle hopen (by simp [hconn]) (history_note rfl)
    · exact .untouched (by simp [Ne.symm hd]) (history_note_ne rfl hd)
  | @answer e d conn turn rest deadline result _ hconn hline hbusy =>
    by_cases hd : c = d
    · subst hd
      exact .answered result hconn hline hbusy (by simp [hconn, hline]) (history_note rfl)
    · exact .untouched (by simp [Ne.symm hd]) (history_note_ne rfl hd)

/-! ## Closed for good -/

theorem Change.isClosed {s s' : System} {c : ConnectionId} (h : Change s s' c)
    (hc : s.isClosed c = true) : s'.isClosed c = true := by
  obtain ⟨conn, hconn, hclosed⟩ := exists_of_isClosed hc
  cases h with
  | untouched hconn' hlog => rw [isClosed_of_getElem? (hconn'.trans hconn), hclosed]
  | born hnone => exact absurd (List.getElem?_eq_some_iff.mp hconn).1 (by omega)
  | joined turn hconn₁ hconn' hlog =>
    obtain rfl := Option.some.inj (hconn.symm.trans hconn₁)
    rw [isClosed_of_getElem? hconn', hclosed]
  | passedOver hconn₁ hline hidle hclosed₁ hconn' hlog =>
    rw [isClosed_of_getElem? hconn', hclosed₁]
  | called hconn₁ hline hidle hopen =>
    obtain rfl := Option.some.inj (hconn.symm.trans hconn₁)
    rw [hclosed] at hopen
    cases hopen
  | answered result hconn₁ hline hbusy hconn' hlog =>
    obtain rfl := Option.some.inj (hconn.symm.trans hconn₁)
    rw [isClosed_of_getElem? hconn', hclosed]

/-- Once closing is over, the sink is not called any more. -/
theorem Change.isShut {s s' : System} {c : ConnectionId} (h : Change s s' c)
    (hc : s.isShut c = true) : s'.isShut c = true := by
  obtain ⟨conn, hconn, hclosed, hidle⟩ := isShut_iff.mp hc
  refine isShut_iff.mpr ?_
  cases h with
  | untouched hconn' => exact ⟨conn, hconn'.trans hconn, hclosed, hidle⟩
  | born hnone => exact absurd (List.getElem?_eq_some_iff.mp hconn).1 (by omega)
  | joined turn hconn₁ hconn' =>
    obtain rfl := Option.some.inj (hconn.symm.trans hconn₁)
    exact ⟨_, hconn', hclosed, hidle⟩
  | passedOver _ _ _ hclosed₁ hconn' => exact ⟨_, hconn', hclosed₁, rfl⟩
  | called hconn₁ _ _ hopen =>
    obtain rfl := Option.some.inj (hconn.symm.trans hconn₁)
    rw [hclosed] at hopen
    cases hopen
  | answered result hconn₁ _ hbusy =>
    obtain rfl := Option.some.inj (hconn.symm.trans hconn₁)
    rw [hidle] at hbusy
    cases hbusy

theorem sends_congr {s s' : System} {c : ConnectionId} (h : s'.history c = s.history c) :
    s'.sends c = s.sends c := by
  unfold sends
  rw [h]

theorem sends_append {s s' : System} {c : ConnectionId} {x : TaskId × Occurrence}
    (h : s'.history c = s.history c ++ [x]) (hx : x.2.frame? = none) : s'.sends c = s.sends c := by
  simp [sends, h, hx, List.filterMap_append]

theorem Change.sends_of_closed {s s' : System} {c : ConnectionId} (h : Change s s' c)
    (hc : s.isClosed c = true) : s'.sends c = s.sends c := by
  cases h with
  | untouched _ hlog => exact sends_congr hlog
  | born _ _ hlog => exact sends_congr hlog
  | joined _ _ _ hlog => exact sends_congr hlog
  | passedOver _ _ _ _ _ hlog => exact sends_append hlog rfl
  | called hconn _ _ hopen =>
    rw [isClosed_of_getElem? hconn, hopen] at hc
    cases hc
  | answered _ _ _ _ _ hlog => exact sends_append hlog rfl

/-- **A closed connection stays closed, and no frame is handed to its sink.** -/
theorem run_of_closed {s s' : System} {es : List Event} {c : ConnectionId}
    (hc : s.isClosed c = true) (hrun : s.run es = some s') :
    s'.isClosed c = true ∧ s'.sends c = s.sends c :=
  run_preserves (P := fun s' => s'.isClosed c = true ∧ s'.sends c = s.sends c)
    (fun ⟨hclosed, hsends⟩ hm =>
      ⟨(hm.change c).isClosed hclosed, ((hm.change c).sends_of_closed hclosed).trans hsends⟩)
    ⟨hc, rfl⟩ hrun

end System

/-! ## The grammar -/

/-- What may be noted at a connection, with whether it is closed then, and with the turn whose call
is under way. -/
inductive Conduct : List (TaskId × Occurrence) → Bool → Option Turn → Prop
  | nil : Conduct [] false none
  | called {history : List (TaskId × Occurrence)} (turn : Turn) (h : Conduct history false none) :
      Conduct (history ++ [(turn.task, .called turn.errand)]) (turn.errand == .close) (some turn)
  | answered {history : List (TaskId × Occurrence)} {closed : Bool} {turn : Turn} (result : Sent)
      (h : Conduct history closed (some turn)) :
      Conduct (history ++ [(turn.task, .answered turn.errand result)]) closed none
  | passedOver {history : List (TaskId × Occurrence)} (t : TaskId) (errand : Errand)
      (h : Conduct history true none) : Conduct (history ++ [(t, .passedOver errand)]) true none

/-- While a call is under way, a connection is closed if that call is the close. -/
theorem Conduct.closed_eq {history : List (TaskId × Occurrence)} {closed : Bool} {turn : Turn}
    (h : Conduct history closed (some turn)) : closed = (turn.errand == .close) := by
  cases h
  rfl

/-- A connection is as what was noted at it says. -/
inductive Connection.Follows (conn : Connection) (history : List (TaskId × Occurrence)) : Prop
  | idle (hidle : conn.deadline = none) (h : Conduct history conn.closed none)
  | busy {turn : Turn} {rest : List Turn} {deadline : Nat} (hbusy : conn.deadline = some deadline)
      (hline : conn.line = turn :: rest) (h : Conduct history conn.closed (some turn))

theorem Connection.Follows.of_idle {conn : Connection} {history : List (TaskId × Occurrence)}
    (h : conn.Follows history) (hidle : conn.deadline = none) :
    Conduct history conn.closed none := by
  cases h with
  | idle _ h => exact h
  | busy hbusy => rw [hidle] at hbusy; cases hbusy

theorem Connection.Follows.of_busy {conn : Connection} {history : List (TaskId × Occurrence)}
    {turn : Turn} {rest : List Turn} {deadline : Nat} (h : conn.Follows history)
    (hbusy : conn.deadline = some deadline) (hline : conn.line = turn :: rest) :
    Conduct history conn.closed (some turn) := by
  cases h with
  | idle hidle => rw [hidle] at hbusy; cases hbusy
  | busy _ hline' h =>
    rw [hline] at hline'
    obtain ⟨rfl, -⟩ := List.cons.inj hline'
    exact h

namespace System

/-- Every connection follows the grammar, and nothing was noted at one that is not there. -/
structure Lawful (s : System) : Prop where
  follows : ∀ {c : ConnectionId} {conn : Connection},
    s.connections[c]? = some conn → conn.Follows (s.history c)
  blank : ∀ {c : ConnectionId}, s.connections.length ≤ c → s.history c = []

theorem lawful_init (timeouts : List Time.Duration) : (init timeouts).Lawful where
  follows h := by simp [init] at h
  blank _ := rfl

/-- **Every event keeps to the grammar.** -/
theorem lawful_move {s s' : System} {e : Event} (h : s.Lawful) (hm : s.Move e s') :
    s'.Lawful where
  follows {c conn'} hconn' := by
    cases hm.change c with
    | untouched hsame hlog => exact hlog ▸ h.follows (hsame.symm.trans hconn')
    | born hnone hborn hlog =>
      obtain rfl := Option.some.inj (hborn.symm.trans hconn')
      rw [hlog, h.blank (Nat.le_of_eq hnone)]
      exact .idle rfl .nil
    | joined turn hconn hjoined hlog =>
      obtain rfl := Option.some.inj (hjoined.symm.trans hconn')
      rw [hlog]
      cases h.follows hconn with
      | idle hidle h => exact .idle hidle h
      | busy hbusy hline h =>
        exact .busy hbusy (congrArg (· ++ [turn]) hline) h
    | passedOver hconn hline hidle hclosed hpassed hlog =>
      obtain rfl := Option.some.inj (hpassed.symm.trans hconn')
      have hconduct := (h.follows hconn).of_idle hidle
      rw [hclosed] at hconduct
      rw [hlog]
      exact .idle rfl (hclosed ▸ hconduct.passedOver _ _)
    | called hconn hline hidle hopen hcalled hlog =>
      -- a call is made only while none is under way, and only before the close
      obtain rfl := Option.some.inj (hcalled.symm.trans hconn')
      have hconduct := (h.follows hconn).of_idle hidle
      rw [hopen] at hconduct
      rw [hlog]
      exact .busy rfl hline (hconduct.called _)
    | answered result hconn hline hbusy hanswered hlog =>
      obtain rfl := Option.some.inj (hanswered.symm.trans hconn')
      rw [hlog]
      exact .idle rfl (((h.follows hconn).of_busy hbusy hline).answered result)
  blank {c} hc := by
    have hnone : s'.connections[c]? = none := List.getElem?_eq_none hc
    cases hm.change c with
    | untouched hsame hlog =>
      rw [hlog]
      exact h.blank (List.getElem?_eq_none_iff.mp (hsame.symm.trans hnone))
    | born _ hconn' | joined _ _ hconn' | passedOver _ _ _ _ hconn' | called _ _ _ _ hconn'
    | answered _ _ _ _ hconn' =>
      rw [hnone] at hconn'
      cases hconn'

end System

/-! ## What the grammar says -/

/-- A write that was called for and answered. -/
structure Write where
  task : TaskId
  payload : Octets
  result : Sent

/-- What is noted of a write. -/
def Write.noted (w : Write) : List (TaskId × Occurrence) :=
  [(w.task, .called (.send w.payload)), (w.task, .answered (.send w.payload) w.result)]

/-- What is noted once the writes are over, with whether the connection is closed and which call is
under way: nothing, a write or the close that has not been answered, or a close that has ended and
the errands that came too late. -/
inductive Ending : List (TaskId × Occurrence) → Bool → Option Turn → Prop
  | none : Ending [] false none
  | writing (t : TaskId) (payload : Octets) :
      Ending [(t, .called (.send payload))] false (some ⟨t, .send payload⟩)
  | closing (t : TaskId) : Ending [(t, .called .close)] true (some ⟨t, .close⟩)
  | closed (t : TaskId) (result : Sent) (late : List (TaskId × Errand)) :
      Ending ((t, .called .close) :: (t, .answered .close result) ::
        late.map fun e => (e.1, .passedOver e.2)) true none

/-- The calls of a sink come one after another: writes, each answered before the next call, and then
at most one close, after which the sink is not called again. -/
def Orderly (history : List (TaskId × Occurrence)) : Prop :=
  ∃ (writes : List Write) (ending : List (TaskId × Occurrence)) (closed : Bool)
    (call : Option Turn),
    history = writes.flatMap Write.noted ++ ending ∧ Ending ending closed call

theorem Conduct.ending {history : List (TaskId × Occurrence)} {closed : Bool} {call : Option Turn}
    (h : Conduct history closed call) :
    ∃ (writes : List Write) (ending : List (TaskId × Occurrence)),
      history = writes.flatMap Write.noted ++ ending ∧ Ending ending closed call := by
  induction h with
  | nil => exact ⟨[], [], rfl, .none⟩
  | called turn _ ih =>
    obtain ⟨writes, ending, rfl, hending⟩ := ih
    cases hending
    obtain ⟨t, errand⟩ := turn
    cases errand with
    | send payload => exact ⟨writes, _, by simp, .writing t payload⟩
    | close => exact ⟨writes, _, by simp, .closing t⟩
  | answered result _ ih =>
    obtain ⟨writes, ending, rfl, hending⟩ := ih
    cases hending with
    | writing t payload =>
      exact ⟨writes ++ [⟨t, payload, result⟩], [], by simp [Write.noted], .none⟩
    | closing t => exact ⟨writes, _, by simp, .closed t result []⟩
  | passedOver t errand _ ih =>
    obtain ⟨writes, ending, rfl, hending⟩ := ih
    cases hending with
    | closed t₀ result late =>
      exact ⟨writes, _, by simp, .closed t₀ result (late ++ [(t, errand)])⟩

theorem Conduct.orderly {history : List (TaskId × Occurrence)} {closed : Bool} {call : Option Turn}
    (h : Conduct history closed call) : Orderly history := by
  obtain ⟨writes, ending, heq, hending⟩ := h.ending
  exact ⟨writes, ending, closed, call, heq, hending⟩

namespace System

/-- **Whatever happens, what is noted at a connection is in order.** -/
theorem Lawful.orderly {s : System} (h : s.Lawful) (c : ConnectionId) : Orderly (s.history c) := by
  by_cases hlt : c < s.connections.length
  · cases h.follows (List.getElem?_eq_getElem hlt) with
    | idle _ h => exact h.orderly
    | busy _ _ h => exact h.orderly
  · rw [h.blank (Nat.le_of_not_lt hlt)]
    exact Conduct.nil.orderly

end System

end UserDirectory.Hub

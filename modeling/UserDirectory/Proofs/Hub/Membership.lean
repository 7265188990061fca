import UserDirectory.Proofs.Hub.Soundness

/-!
# Members are open, and who has left is closed

A connection is taken out of a registry in one step and closed in another, and four kinds of
operation do so, any of which may come between two steps of another. `Kept` is what they all keep,
as long as the connections of a registry are given to operations of that registry alone
(`keepsHandles`): who is to be closed, or is closed, is no member (`leaving`, `closed`); and who is
no member any more is closed, or some operation is still to close it (`gone`). When nothing is in
flight, nothing is still to be closed, and then the members are the connections that are open.

Who finds a connection among the members takes it out in the same step, so one unregistration at
most finds it there.
-/

namespace UserDirectory.Hub

/-- The registry of an operation. -/
def Operation.hub : Operation → HubId
  | register hub => hub
  | unregister hub _ => hub
  | broadcast hub _ _ => hub
  | sendTo hub _ _ => hub
  | closeAll hub => hub
  | contains hub _ => hub
  | count hub => hub

/-- The connection to which an operation was told to do something. -/
def Operation.handle? : Operation → Option ConnectionId
  | unregister _ c => some c
  | sendTo _ c _ => some c
  | _ => none

namespace System

/-! ## Handles -/

/-- Whether an operation that is started was given a connection that is registered, and none of
`hub` unless it is an operation of `hub`. -/
def admits (s : System) (hub : HubId) : Event → Bool
  | .start op => op.handle?.all fun c => (s.home? c).any fun home => home != hub || op.hub == hub
  | _ => true

/-- Whether along a run the connections of `hub` are given to operations of `hub` alone. -/
def keepsHandles (hub : HubId) : System → List Event → Bool
  | _, [] => true
  | s, e :: es => s.admits hub e && (s.step e).all (keepsHandles hub · es)

theorem keepsHandles_append {s s₁ : System} {hub : HubId} {es es' : List Event}
    (hrun : s.run es = some s₁) (h : s.keepsHandles hub (es ++ es') = true) :
    s.keepsHandles hub es = true ∧ s₁.keepsHandles hub es' = true := by
  induction es generalizing s with
  | nil =>
    obtain rfl := Option.some.inj hrun
    exact ⟨rfl, h⟩
  | cons e es ih =>
    obtain ⟨s', hstep, hrest⟩ := Option.bind_eq_some_iff.mp hrun
    simp only [List.cons_append, keepsHandles, hstep, Option.all_some, Bool.and_eq_true] at h ⊢
    obtain ⟨hsome, hrest'⟩ := ih hrest h.2
    exact ⟨⟨h.1, hsome⟩, hrest'⟩

/-! ## What is kept -/

/-- A connection is registered and is not a member. -/
structure Out (s : System) (hub : HubId) (c : ConnectionId) : Prop where
  issued : ∃ home, s.home? c = some home
  not_mem : c ∉ s.members hub

/-- How the registry `hub` and the operations in flight stand to each other. -/
structure Kept (s : System) (hub : HubId) : Prop where
  present : hub < s.hubs.length
  /-- an operation acts on a connection of `hub` only if it is one of `hub` -/
  own : ∀ {t op c}, s.op? t = some op → op.handle? = some c →
    ∃ home, s.home? c = some home ∧ (home = hub → op.hub = hub)
  /-- a broadcast writes to connections of its own registry -/
  reach : ∀ {t home payload except c}, s.op? t = some (.broadcast home payload except) →
    c ∈ s.reach t → s.home? c = some home
  /-- who is to be closed is out -/
  leaving : ∀ {t c}, (c, .close) ∈ s.owing t → s.Out hub c
  /-- who is closed is out -/
  closed : ∀ {c}, s.isClosed c = true → s.Out hub c
  /-- who is out is closed, or is to be closed -/
  gone : ∀ {c}, s.home? c = some hub → c ∉ s.members hub →
    s.isClosed c = true ∨ ∃ t, (c, .close) ∈ s.owing t

section Kept

variable {s s' s₁ : System} {e : Event} {hub : HubId} {c : ConnectionId} {t : TaskId}
  {op : Operation} {p p' : Progress} {asks : List (ConnectionId × Errand)}

theorem Out.move (h : s.Out hub c) (hm : s.Move e s') : s'.Out hub c := by
  obtain ⟨home, hhome⟩ := h.issued
  exact ⟨⟨home, hm.home? hhome⟩, hm.not_mem_members hhome h.not_mem⟩

/-- Who is taken out is to be closed. -/
theorem Going.close_of_left (h : Going s op p s₁ p' asks) (hc : c ∈ s.members hub)
    (hleft : c ∉ s₁.members hub) : (c, .close) ∈ asks := by
  have hremove {hub' : HubId} {d : ConnectionId} (hleft : c ∉ (s.remove hub' d).members hub) :
      (c, Errand.close) ∈ [(d, Errand.close)] := by
    by_cases heq : c = d
    · rw [heq]
      exact .head _
    · exact absurd (mem_members_remove.mpr ⟨hc, fun _ => heq⟩) hleft
  cases h with
  | register hub' =>
    rw [members_enroll] at hleft
    split at hleft
    · exact absurd (List.mem_append_left _ hc) hleft
    · exact absurd hc hleft
  | unregister | prune | dismiss => exact hremove hleft
  | closeAll hub' =>
    by_cases heq : hub = hub'
    · exact List.mem_map.mpr ⟨c, heq ▸ hc, rfl⟩
    · exact absurd (mem_members_clear.mpr ⟨hc, heq⟩) hleft
  | broadcastNone | broadcast | sendTo | closeNone | contains | count | reviewed | reviewOk
  | reviewClosed => exact absurd hc hleft

theorem Move.close_of_left (h : s.Move e s') (hc : c ∈ s.members hub)
    (hleft : c ∉ s'.members hub) : ∃ t, (c, .close) ∈ s'.owing t := by
  cases h with
  | @go t task s₁ p asks htask hasks hgoing =>
    refine ⟨t, ?_⟩
    rw [(hgoing.went htask hasks).owing']
    exact List.mem_append_left _ (hgoing.close_of_left hc hleft)
  | @rearrange hub' members hperm =>
    rw [members_setMembers] at hleft
    split at hleft
    · rename_i hhub
      exact absurd (hperm.mem_iff.mpr (hhub.1 ▸ hc)) hleft
    · exact absurd hc hleft
  | start | ask | passOver | call | answer | pass => exact absurd hc hleft

/-- Only a task that is to close a connection closes it. -/
theorem Move.owed_of_closed (h : s.Move e s') (hopen : ¬ s.isClosed c = true)
    (hclosed : s'.isClosed c = true) : ∃ t, (c, .close) ∈ s.owing t := by
  cases h.change c with
  | untouched hconn' =>
    refine absurd ?_ hopen
    rwa [isClosed, ← hconn']
  | born _ hconn' =>
    rw [isClosed_of_getElem? hconn'] at hclosed
    cases hclosed
  | joined turn hconn hconn' | answered result hconn _ _ hconn' =>
    rw [isClosed_of_getElem? hconn'] at hclosed
    rw [isClosed_of_getElem? hconn] at hopen
    exact absurd hclosed hopen
  | passedOver hconn _ _ hclosed' =>
    rw [isClosed_of_getElem? hconn] at hopen
    exact absurd hclosed' hopen
  | @called conn turn rest hconn hline _ _ hconn' =>
    rw [isClosed_of_getElem? hconn'] at hclosed
    -- the call that closes it is the one that the first in line makes now
    have hclose : turn.errand = .close := by simpa using hclosed
    refine ⟨turn.task, ?_⟩
    rw [← hclose]
    exact mem_owing_of_line hconn (hline ▸ List.mem_cons_self)

/-- **Who is to be closed is taken out first.** -/
theorem Kept.out_of_ask (hk : s.Kept hub) (hs : s.Sound) (hwent : Went s s' t op p s₁ p' asks)
    (hask : (c, .close) ∈ asks) : (∃ home, s.home? c = some home) ∧ c ∉ s₁.members hub := by
  have hop : s.op? t = some op := op?_of_status hwent.status
  -- who is taken out of the registry of an operation is out, since it does not belong elsewhere
  have hremove {d : ConnectionId} {home hub' : HubId} (hhome : s.home? d = some home)
      (hown : home = hub → hub' = hub) : d ∉ (s.remove hub' d).members hub := fun hmem => by
    obtain ⟨hmember, hne⟩ := mem_members_remove.mp hmem
    obtain rfl := Option.some.inj (hhome.symm.trans (hs.registered.home hmember))
    exact hne (hown rfl).symm rfl
  cases hwent.going with
  | unregister hub' d =>
    obtain rfl : c = d := by simpa using hask
    obtain ⟨home, hhome, hown⟩ := hk.own hop rfl
    exact ⟨⟨home, hhome⟩, hremove hhome hown⟩
  | closeAll hub' =>
    obtain ⟨d, hd, heq⟩ := List.mem_map.mp hask
    obtain ⟨rfl, -⟩ := Prod.mk.inj heq
    have hhome := hs.registered.home hd
    refine ⟨⟨hub', hhome⟩, fun hmem => ?_⟩
    obtain ⟨hmember, hne⟩ := mem_members_clear.mp hmem
    exact hne (Option.some.inj ((hs.registered.home hmember).symm.trans hhome))
  | prune _ hub' d reason =>
    obtain rfl : c = d := by simpa using hask
    cases hs.standing hwent.status with
    | reviewing payload except howing hsub =>
      -- the broadcast found it when it began, in the registry out of which it takes it now
      have hresult := hsub _ (List.mem_cons_self ..)
      have hhome := hk.reach hop (List.mem_append_left _ (List.mem_map_of_mem hresult))
      exact ⟨⟨hub', hhome⟩, hremove hhome id⟩
  | dismiss _ hub' d =>
    obtain rfl : c = d := by simpa using hask
    cases hs.standing hwent.status with
    | failed payload =>
      obtain ⟨home, hhome, hown⟩ := hk.own hop rfl
      exact ⟨⟨home, hhome⟩, hremove hhome hown⟩
  | broadcast =>
    obtain ⟨d, -, heq⟩ := List.mem_map.mp hask
    cases heq
  | sendTo => simp at hask
  | register | broadcastNone | closeNone | contains | count | reviewed | reviewOk
  | reviewClosed => cases hask

theorem kept_init {timeouts : List Time.Duration} (hhub : hub < timeouts.length) :
    (init timeouts).Kept hub where
  present := by simpa [init] using hhub
  own h := by simp [op?, init] at h
  reach h := by simp [op?, init] at h
  leaving h := by cases h
  closed h := by simp [isClosed, init] at h
  gone h := by simp [home?, init] at h

/-- A broadcast writes to those whom it found, who belong to its registry. -/
theorem Kept.reach_move (hk : s.Kept hub) (hs : s.Sound) (hm : s.Move e s') {home : HubId}
    {payload : Octets} {except : Option ConnectionId}
    (hop : s'.op? t = some (.broadcast home payload except)) (hc : c ∈ s'.reach t) :
    s.home? c = some home := by
  have hadvance := hm.advance hs.lawful t
  cases hadvance with
  | rested hstatus howing hresults =>
    obtain ⟨p, hp⟩ := status_of_op? hop
    exact hk.reach (op?_of_status (hstatus.symm.trans hp))
      ((reach_congr howing hresults).mem_iff.mp hc)
  | begun hnone _ howing hresults =>
    rw [System.reach, howing, hresults, (hs.unbegun hnone).1, (hs.unbegun hnone).2] at hc
    cases hc
  | went _ hwent =>
    obtain rfl := Option.some.inj ((op?_of_status hwent.status').symm.trans hop)
    rw [hwent.reach (hs.standing hwent.status)] at hc
    obtain hc | hc := List.mem_append.mp hc
    · exact hk.reach (op?_of_status hwent.status) hc
    · split at hc
      · exact hs.registered.home (List.mem_filter.mp hc).1
      · cases hc
  | ended result hstatus howing hresults =>
    obtain ⟨p, hp⟩ := status_of_op? hop
    obtain ⟨p₀, hp₀, -⟩ := status_of_after hstatus hp
    exact hk.reach (op?_of_status hp₀) ((reach_ended howing hresults).mem_iff.mp hc)

/-- **Every event keeps it, if handles are kept.** -/
theorem kept_move (hk : s.Kept hub) (hs : s.Sound) (hadmits : s.admits hub e = true)
    (hm : s.Move e s') : s'.Kept hub where
  present := hm.length_hubs ▸ hk.present
  own {t op c} hop hhandle := by
    obtain hop | rfl := (hm.advance hs.lawful t).started hop
    · obtain ⟨home, hhome, hown⟩ := hk.own hop hhandle
      exact ⟨home, hm.home? hhome, hown⟩
    · simp only [admits, hhandle, Option.all_some, Option.any_eq_true] at hadmits
      obtain ⟨home, hhome, hown⟩ := hadmits
      refine ⟨home, hm.home? hhome, fun heq => ?_⟩
      simpa [heq] using hown
  reach hop hc := hm.home? (hk.reach_move hs hm hop hc)
  leaving {t c} howed := by
    cases hm.advance hs.lawful t with
    | rested _ howing => exact (hk.leaving (howing.mem_iff.mp howed)).move hm
    | begun _ _ howing => exact (hk.leaving (howing ▸ howed)).move hm
    | went _ hwent =>
      rw [hwent.owing_eq (hs.standing hwent.status)] at howed
      obtain ⟨⟨home, hhome⟩, hout⟩ := hk.out_of_ask hs hwent howed
      exact ⟨⟨home, hm.home? hhome⟩, members_congr hwent.hubs hub ▸ hout⟩
    | ended _ _ howing =>
      exact (hk.leaving (howing.mem_iff.mpr (List.mem_cons_of_mem _ howed))).move hm
  closed {c} hclosed := by
    by_cases hbefore : s.isClosed c = true
    · exact (hk.closed hbefore).move hm
    · -- who is closed now was to be closed before, and then it was out
      obtain ⟨t, howed⟩ := hm.owed_of_closed hbefore hclosed
      exact (hk.leaving howed).move hm
  gone {c} hhome hout := by
    cases hbefore : s.home? c with
    | none => exact absurd (hm.enters hk.present hbefore hhome) hout
    | some home =>
      obtain rfl := Option.some.inj ((hm.home? hbefore).symm.trans hhome)
      by_cases hc : c ∈ s.members home
      · exact .inr (hm.close_of_left hc hout)
      · -- who was out before is still to be closed, or has been closed meanwhile
        obtain hclosed | ⟨t, howed⟩ := hk.gone hbefore hc
        · exact .inl ((hm.change c).isClosed hclosed)
        · exact (closing_move hs hm (.inl howed)).symm.imp_right fun howed => ⟨t, howed⟩

/-- What every event keeps while handles are kept, every run keeps along which they are. -/
theorem run_keeps {P : System → Prop}
    (hmove : ∀ {s e s'}, s.Sound → s.Kept hub → P s → s.Move e s' → P s') {es : List Event}
    (hs : s.Sound) (hk : s.Kept hub) (hp : P s) (hkeeps : s.keepsHandles hub es = true)
    (hrun : s.run es = some s') : s'.Kept hub ∧ P s' := by
  induction es generalizing s with
  | nil =>
    obtain rfl := Option.some.inj hrun
    exact ⟨hk, hp⟩
  | cons e es ih =>
    obtain ⟨s₁, hstep, hrest⟩ := Option.bind_eq_some_iff.mp hrun
    have hm := move_of_step hstep
    simp only [keepsHandles, hstep, Option.all_some, Bool.and_eq_true] at hkeeps
    exact ih (sound_move hs hm) (kept_move hk hs hkeeps.1 hm) (hmove hs hk hp hm) hkeeps.2 hrest

end Kept

/-! ## Who took a connection out -/

end System

/-- Whether an unregistration that has come so far found the connection. -/
def Progress.tookOut : Progress → Bool
  | leaving removed => removed
  | finished (.unregistered removed) => removed
  | _ => false

theorem Progress.tookOut_after (p : Progress) (c : ConnectionId) (errand : Errand) (result : Sent) :
    (p.after c errand result).tookOut = p.tookOut := by
  cases errand with
  | send payload =>
    simp only [after]
    unfold afterSend
    split
    · dsimp only
      split <;> rfl
    · split <;> rfl
    · rfl
  | close =>
    simp only [after]
    unfold afterClose
    split
    · rfl
    · rfl
    · rfl
    · split <;> rfl
    · rfl

namespace System

/-- An unregistration of a connection found it among the members. -/
def TookOut (s : System) (t : TaskId) (hub : HubId) (c : ConnectionId) : Prop :=
  ∃ p, s.status t = some (.unregister hub c, p) ∧ p.tookOut = true

section TookOut

variable {s s' s₁ : System} {e : Event} {hub : HubId} {c : ConnectionId} {t : TaskId}

theorem Going.found {p p' : Progress} {asks : List (ConnectionId × Errand)}
    (h : Going s (.unregister hub c) p s₁ p' asks) (hp : p'.tookOut = true) :
    c ∈ s.members hub := by
  cases h with
  | unregister => simpa [Progress.tookOut] using hp
  | reviewed | reviewOk | reviewClosed | prune | dismiss => cases hp

/-- Who takes a connection out finds it. -/
theorem Advance.found (h : Advance s e s' t) (ht : s'.TookOut t hub c) :
    s.TookOut t hub c ∨ e = .act t ∧ c ∈ s.members hub := by
  obtain ⟨p, hp, htook⟩ := ht
  cases h with
  | rested hstatus => exact .inl ⟨p, hstatus.symm.trans hp, htook⟩
  | begun _ hstatus =>
    obtain ⟨-, rfl⟩ := Prod.mk.inj (Option.some.inj (hstatus.symm.trans hp))
    cases htook
  | went hact hwent =>
    obtain ⟨rfl, rfl⟩ := Prod.mk.inj (Option.some.inj (hwent.status'.symm.trans hp))
    exact .inr ⟨hact, hwent.going.found htook⟩
  | ended result hstatus =>
    obtain ⟨p₀, hp₀, rfl⟩ := status_of_after hstatus hp
    rw [Progress.tookOut_after] at htook
    exact .inl ⟨p₀, hp₀, htook⟩

theorem Kept.not_mem_of_tookOut (hk : s.Kept hub) (hs : s.Sound) (ht : s.TookOut t hub c) :
    c ∉ s.members hub := by
  obtain ⟨p, hp, htook⟩ := ht
  cases hs.standing hp with
  | starting => cases htook
  | leaving _ _ howing => exact (hk.leaving (howing ▸ List.mem_singleton_self _)).not_mem
  | finished _ hsettled =>
    cases hsettled with
    | unregister _ _ _ hshut => exact (hk.closed (isClosed_of_isShut hshut)).not_mem

/-- A connection is taken out once. -/
theorem tookOut_unique_move (hs : s.Sound) (hk : s.Kept hub)
    (h : ∀ t u, s.TookOut t hub c → s.TookOut u hub c → t = u) (hm : s.Move e s') (t u : TaskId)
    (ht : s'.TookOut t hub c) (hu : s'.TookOut u hub c) : t = u := by
  obtain ht | ⟨rfl, hmem⟩ := (hm.advance hs.lawful t).found ht
  · obtain hu | ⟨-, hmem⟩ := (hm.advance hs.lawful u).found hu
    · exact h t u ht hu
    · exact absurd hmem (hk.not_mem_of_tookOut hs ht)
  · obtain hu | ⟨heq, -⟩ := (hm.advance hs.lawful u).found hu
    · exact absurd hmem (hk.not_mem_of_tookOut hs hu)
    · exact Event.act.inj heq

/-- Once a connection is out, no one else takes it out. -/
theorem tookOut_only_move {last : Event} (hs : s.Sound)
    (h : s.Out hub c ∧ ∀ t, s.TookOut t hub c → last = .act t) (hm : s.Move e s') :
    s'.Out hub c ∧ ∀ t, s'.TookOut t hub c → last = .act t := by
  refine ⟨h.1.move hm, fun t ht => ?_⟩
  obtain ht | ⟨-, hmem⟩ := (hm.advance hs.lawful t).found ht
  · exact h.2 t ht
  · exact absurd hmem h.1.not_mem

theorem tookOut_of_unregistered
    (h : s.status t = some (.unregister hub c, .finished (.unregistered true))) :
    s.TookOut t hub c := ⟨_, h, rfl⟩

end TookOut

/-! ## When nothing is in flight -/

/-- No operation is in flight. -/
def Quiet (s : System) : Prop := ∀ t < s.tasks.length, (s.outcome? t).isSome

instance (s : System) : Decidable s.Quiet :=
  inferInstanceAs (Decidable (∀ t < s.tasks.length, (s.outcome? t).isSome))

/-- The number of open connections that a registry issued. -/
def openCount (s : System) (hub : HubId) : Nat :=
  s.connections.countP fun conn => conn.hub == hub && !conn.closed

/-- The open connections that a registry issued. -/
def openOf (s : System) (hub : HubId) : List ConnectionId :=
  (s.connections.zipIdx.filter fun x => x.1.hub == hub && !x.1.closed).map Prod.snd

theorem mem_openOf {s : System} {hub : HubId} {c : ConnectionId} :
    c ∈ s.openOf hub ↔
      ∃ conn, s.connections[c]? = some conn ∧ conn.hub = hub ∧ conn.closed = false := by
  simp [openOf, List.mem_zipIdx_iff_getElem?]

theorem openOf_nodup (s : System) (hub : HubId) : (s.openOf hub).Nodup := by
  have hnodup : (s.connections.zipIdx.map Prod.snd).Nodup := by
    rw [List.zipIdx_map_snd]
    exact List.nodup_range'
  exact (List.filter_sublist.map Prod.snd).nodup hnodup

theorem length_openOf (s : System) (hub : HubId) : (s.openOf hub).length = s.openCount hub := by
  rw [openOf, List.length_map, ← List.countP_eq_length_filter, openCount]
  conv => rhs; rw [← List.zipIdx_map_fst 0 s.connections, List.countP_map]
  rfl

theorem Quiet.owing_eq_nil {s : System} (h : s.Quiet) (hs : s.Sound) (t : TaskId) :
    s.owing t = [] := by
  cases hstatus : s.status t with
  | none => exact (hs.unbegun hstatus).1
  | some x =>
    have hlt : t < s.tasks.length := by
      obtain ⟨task, htask, -⟩ := status_eq_some_iff.mp hstatus
      exact (List.getElem?_eq_some_iff.mp htask).1
    obtain ⟨outcome, houtcome⟩ := Option.isSome_iff_exists.mp (h t hlt)
    obtain ⟨op, hfinished⟩ := outcome?_eq_some_iff.mp houtcome
    cases hs.standing hfinished with
    | finished howing => exact howing

theorem Kept.exists_of_mem {s : System} {hub : HubId} (hk : s.Kept hub) (hs : s.Sound)
    {c : ConnectionId} (hc : c ∈ s.members hub) :
    ∃ conn, s.connections[c]? = some conn ∧ conn.hub = hub ∧ conn.closed = false := by
  obtain ⟨conn, hconn, hhome⟩ := Option.map_eq_some_iff.mp (hs.registered.home hc)
  refine ⟨conn, hconn, hhome, Bool.eq_false_iff.mpr fun hclosed => ?_⟩
  exact (hk.closed ((isClosed_of_getElem? hconn).trans hclosed)).not_mem hc

/-- **When nothing is in flight, the members are the open connections.** -/
theorem Kept.mem_members_iff {s : System} {hub : HubId} (hk : s.Kept hub) (hs : s.Sound)
    (hquiet : s.Quiet) {c : ConnectionId} : c ∈ s.members hub ↔ c ∈ s.openOf hub := by
  rw [mem_openOf]
  refine ⟨fun hc => hk.exists_of_mem hs hc, ?_⟩
  rintro ⟨conn, hconn, hhome, hopen⟩
  by_cases hc : c ∈ s.members hub
  · exact hc
  · -- otherwise it would be closed, or some task would still owe the close
    have hhome : s.home? c = some hub := by simp [home?, hconn, hhome]
    obtain hclosed | ⟨t, howed⟩ := hk.gone hhome hc
    · rw [isClosed_of_getElem? hconn, hopen] at hclosed
      cases hclosed
    · rw [hquiet.owing_eq_nil hs t] at howed
      cases howed

theorem outcome?_count (s : System) (hub : HubId) :
    (s.run [.start (.count hub), .act s.tasks.length]).bind (·.outcome? s.tasks.length) =
      some (.counted (s.members hub).length) := by
  simp [run, step, launch, act?, startOperation, finishTask, outcome?]
  rfl

/-! ## Along a run -/

theorem kept_run {timeouts : List Time.Duration} {hub : HubId} {s : System} {es : List Event}
    (hhub : hub < timeouts.length) (hkeeps : (init timeouts).keepsHandles hub es = true)
    (hrun : (init timeouts).run es = some s) : s.Kept hub :=
  (run_keeps (P := fun _ => True) (fun _ _ _ _ => trivial) (sound_init timeouts)
    (kept_init hhub) trivial hkeeps hrun).1

theorem tookOut_unique {timeouts : List Time.Duration} {hub : HubId} {s : System}
    {es : List Event} (hhub : hub < timeouts.length)
    (hkeeps : (init timeouts).keepsHandles hub es = true)
    (hrun : (init timeouts).run es = some s) (c : ConnectionId) :
    ∀ t u, s.TookOut t hub c → s.TookOut u hub c → t = u := by
  refine (run_keeps (P := fun s => ∀ t u, s.TookOut t hub c → s.TookOut u hub c → t = u)
    tookOut_unique_move (sound_init timeouts) (kept_init hhub) ?_ hkeeps hrun).2
  rintro t u ⟨p, hp, -⟩
  simp [status, init] at hp

/-- Who took a connection out is who took the step by which it left. -/
theorem Kept.tookOut_of_left {s s₁ s₂ : System} {hub : HubId} {c : ConnectionId} {e : Event}
    {es : List Event} (hk : s.Kept hub) (hs : s.Sound)
    (hkeeps : s.keepsHandles hub (e :: es) = true) (hstep : s.step e = some s₁)
    (hrest : s₁.run es = some s₂) (hc : c ∈ s.members hub) (hleft : c ∉ s₁.members hub)
    {t : TaskId} (ht : s₂.TookOut t hub c) : e = .act t := by
  have hm := move_of_step hstep
  simp only [keepsHandles, hstep, Option.all_some, Bool.and_eq_true] at hkeeps
  have hout : s₁.Out hub c := ⟨⟨hub, hm.home? (hs.registered.home hc)⟩, hleft⟩
  have hfirst : ∀ t, s₁.TookOut t hub c → e = .act t := by
    intro t ht
    obtain ht | ⟨hact, -⟩ := (hm.advance hs.lawful t).found ht
    · exact absurd hc (hk.not_mem_of_tookOut hs ht)
    · exact hact
  exact (run_keeps (P := fun s => s.Out hub c ∧ ∀ t, s.TookOut t hub c → e = .act t)
    (fun hs _ h hm => tookOut_only_move hs h hm) (sound_move hs hm)
    (kept_move hk hs hkeeps.1 hm) ⟨hout, hfirst⟩ hkeeps.2 hrest).2.2 t ht

/-- **Members are open, who has left stays out, and one unregistration at most finds a connection.**
As long as the connections of a registry are given to its own operations alone, in whatever order
these go on: a member is open; a registered connection that is no member never becomes one; two
unregistrations of a connection do not both find it, and one that does is what took it out; and when
nothing is in flight, the members are the open connections, which is what counting them gives. -/
theorem membership_exact {timeouts : List Time.Duration} {hub : HubId} {s₁ s₂ : System}
    {es₁ es₂ : List Event} (hhub : hub < timeouts.length)
    (h₁ : (init timeouts).run es₁ = some s₁) (h₂ : s₁.run es₂ = some s₂)
    (hkeeps : (init timeouts).keepsHandles hub (es₁ ++ es₂) = true) :
    (∀ c ∈ s₂.members hub,
      ∃ conn, s₂.connections[c]? = some conn ∧ conn.hub = hub ∧ conn.closed = false) ∧
    (∀ c, s₁.home? c = some hub → c ∉ s₁.members hub → c ∉ s₂.members hub) ∧
    (∀ c t u, s₂.status t = some (.unregister hub c, .finished (.unregistered true)) →
      s₂.status u = some (.unregister hub c, .finished (.unregistered true)) → t = u) ∧
    (∀ c e es s, es₂ = e :: es → s₁.step e = some s → c ∈ s₁.members hub → c ∉ s.members hub →
      ∀ t, s₂.status t = some (.unregister hub c, .finished (.unregistered true)) →
        e = .act t) ∧
    (s₂.Quiet →
      (∀ c conn, s₂.connections[c]? = some conn → conn.hub = hub →
        (c ∈ s₂.members hub ↔ conn.closed = false)) ∧
      (s₂.run [.start (.count hub), .act s₂.tasks.length]).bind (·.outcome? s₂.tasks.length) =
        some (.counted (s₂.openCount hub))) := by
  have hrun : (init timeouts).run (es₁ ++ es₂) = some s₂ := run_append h₁ h₂
  obtain ⟨hkeeps₁, hkeeps₂⟩ := keepsHandles_append h₁ hkeeps
  have hs₁ : s₁.Sound := sound_reachable ⟨es₁, h₁⟩
  have hs₂ : s₂.Sound := sound_reachable ⟨_, hrun⟩
  have hk₁ : s₁.Kept hub := kept_run hhub hkeeps₁ h₁
  have hk₂ : s₂.Kept hub := kept_run hhub hkeeps hrun
  refine ⟨fun c hc => hk₂.exists_of_mem hs₂ hc, ?_, ?_, ?_, ?_⟩
  · intro c hhome hleft
    have hout : s₁.Out hub c := ⟨⟨hub, hhome⟩, hleft⟩
    exact (run_preserves (P := fun s => s.Out hub c) (fun h hm => h.move hm) hout h₂).not_mem
  · intro c t u ht hu
    exact tookOut_unique hhub hkeeps hrun c t u (tookOut_of_unregistered ht)
      (tookOut_of_unregistered hu)
  · intro c e es s hes hstep hc hleft t ht
    subst hes
    have hrest : s.run es = some s₂ := by simpa [run, hstep] using h₂
    exact hk₁.tookOut_of_left hs₁ hkeeps₂ hstep hrest hc hleft (tookOut_of_unregistered ht)
  · intro hquiet
    refine ⟨fun c conn hconn hhome => ?_, ?_⟩
    · rw [hk₂.mem_members_iff hs₂ hquiet, mem_openOf]
      simp [hconn, hhome]
    · have hperm : (s₂.members hub).Perm (s₂.openOf hub) :=
        (List.perm_ext_iff_of_nodup (hs₂.registered.nodup hub) (s₂.openOf_nodup hub)).mpr
          fun c => hk₂.mem_members_iff hs₂ hquiet
      rw [outcome?_count, hperm.length_eq, length_openOf]

/-- Three connections of a registry and one of another are registered; the first is unregistered,
and of the two writes of a broadcast the first has failed. -/
def beforePrune : List Event :=
  [.start (.register 0), .act 0, .start (.register 0), .act 1, .start (.register 0), .act 2,
    .start (.register 1), .act 3, .start (.unregister 0 0), .act 4, .act 4, .enter 0, .finish 0 .ok,
    .start (.broadcast 0 [7] none), .act 5, .act 5, .act 5, .enter 1,
    .finish 1 (.failed (.write "broken pipe")), .enter 2, .finish 2 .ok]

/-- The broadcast takes the second connection out, but an unregistration comes before it in line to
close it; and the first connection is unregistered again. -/
def fromPrune : List Event :=
  [.act 5, .start (.unregister 0 1), .act 6, .act 6, .act 5, .enter 1, .finish 1 .ok, .enter 1,
    .act 5, .act 5, .start (.unregister 0 0), .act 7, .act 7, .enter 0,
    .start (.sendTo 1 3 [9]), .act 8, .act 8, .enter 3, .finish 3 .ok]

theorem membership_exact_pruned : ∃ s₁ s₂ : System,
    (init [.ofMillis 50, .ofMillis 50]).run beforePrune = some s₁ ∧
    s₁.run fromPrune = some s₂ ∧
    (init [.ofMillis 50, .ofMillis 50]).keepsHandles 0 (beforePrune ++ fromPrune) = true ∧
    (2 ∈ s₂.members 0 ∧
      ∃ conn, s₂.connections[2]? = some conn ∧ conn.hub = 0 ∧ conn.closed = false) ∧
    (0 ∉ s₁.members 0 ∧ 0 ∉ s₂.members 0) ∧
    (s₂.status 4 = some (.unregister 0 0, .finished (.unregistered true)) ∧
      ∀ t, s₂.status t = some (.unregister 0 0, .finished (.unregistered true)) → t = 4) ∧
    (1 ∈ s₁.members 0 ∧
      ∀ t, s₂.status t = some (.unregister 0 1, .finished (.unregistered true)) →
        Event.act 5 = .act t) ∧
    s₂.Quiet ∧
    (s₂.run [.start (.count 0), .act s₂.tasks.length]).bind (·.outcome? s₂.tasks.length) =
      some (.counted 1) := by
  obtain ⟨hopen, hout, honce, hlast, hquiet⟩ :=
    @membership_exact [.ofMillis 50, .ofMillis 50] 0 _ _ beforePrune fromPrune (by decide) rfl rfl
      (by decide)
  obtain ⟨-, hcount⟩ := hquiet (by decide)
  exact ⟨_, _, rfl, rfl, by decide, ⟨by decide, hopen 2 (by decide)⟩,
    ⟨by decide, hout 0 rfl (by decide)⟩, ⟨rfl, fun t ht => honce 0 t 4 ht rfl⟩,
    ⟨by decide, hlast 1 _ _ _ rfl rfl (by decide) (by decide)⟩, by decide, hcount⟩

end System

end UserDirectory.Hub

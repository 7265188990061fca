import UserDirectory.Client.Basic
import UserDirectory.Config.Settings
import UserDirectory.Proofs.Broker.Delivery
import UserDirectory.Proofs.Hub.Guarded

/-!
# What settings can do to those who use them

Three limits come from the settings: how long a command may take, how long a write may take, and how
large a mailbox is. Each is followed here from the variable to where it is used: the time of a
command to the exchange of a request, the time of a write to the connections of a hub, and the size
to the mailboxes of a broker.

No time at all is caught on the way, wherever it comes from, so no command and no write is over as
soon as it begins. A size of nothing is caught as well, but nothing bounds the size from above, and
a mailbox cannot be made as large as a number of 64 bits may be (`Makeable`).
-/

namespace UserDirectory

open Time (Duration)

namespace Broker

/-- The largest number of messages that a mailbox can be made for: an eighth of the numbers that a
word of 64 bits holds. -/
def maxMailbox : Nat := (Nat.pow 2 64 - 1) / 8

/-- Whether mailboxes of a size can be made. A subscription that needs one of another size does not
fail, it brings its caller down. -/
def Makeable (size : Nat) : Prop := 1 ≤ size ∧ size ≤ maxMailbox

instance (size : Nat) : Decidable (Makeable size) := inferInstanceAs (Decidable (_ ∧ _))

/-- Whatever happened to a broker, its mailboxes are of the size that it was made with. -/
theorem makeable_after (capacity : Nat) (ops : List Operation) :
    Makeable (after capacity ops).capacity ↔ capacity ≤ maxMailbox := by
  have hcapacity : (after capacity ops).capacity = max capacity 1 := capacity_run ..
  have hmax : 1 ≤ maxMailbox := by decide
  rw [hcapacity, Makeable]
  omega

/-- A request that was delivered waits as long as it was told to. -/
theorem timeout_of_request {b b' : Broker} {channel : String} {payload : Octets}
    {timeout : Duration} {x : ExchangeId}
    (h : b.request channel payload timeout = (.ok x, b')) :
    b'.exchanges[x]?.map (·.timeout) = some timeout := by
  unfold request at h
  split at h
  · cases h
  · simp only [deliverRequest] at h
    split at h
    · cases h
    · cases h
      simp [deliver]

end Broker

namespace Hub.System

variable {s s' : System} {e : Event}

/-- Every connection may take some time for a call. -/
structure Patient (s : System) : Prop where
  hubs : ∀ hub, 0 < (s.timeout hub).nanos
  connections : ∀ {c : ConnectionId} {conn : Connection}, s.connections[c]? = some conn →
    0 < conn.timeout.nanos

theorem patient_init (timeouts : List Duration) : (init timeouts).Patient where
  hubs := timeout_init_pos timeouts
  connections h := by simp [init] at h

theorem Patient.move (h : s.Patient) (hm : s.Move e s') : s'.Patient where
  hubs hub := by
    rw [hm.timeout]
    exact h.hubs hub
  connections {c conn'} hconn' := by
    rcases (hm.change c).timeout hconn' with hnew | ⟨conn, hconn, -, htimeout⟩
    · rw [hnew]
      exact h.hubs _
    · rw [← htimeout]
      exact h.connections hconn

theorem patient_reachable {timeouts : List Duration} (h : Reachable timeouts s) : s.Patient := by
  obtain ⟨es, hrun⟩ := h
  exact run_preserves (fun h hm => h.move hm) (patient_init timeouts) hrun

end Hub.System

namespace Config

variable {lookup : Lookup} {s : Settings}

/-- A variable spells a number below a bound, blanks at its ends not counted. -/
def Spells (lookup : Lookup) (name : String) (bound n : Nat) : Prop :=
  ∃ v, lookup name = some v ∧ parseNat? bound (Text.trim v.toList) = some n

/-- A number that is not the default is spelled. -/
theorem spells_of_number (lookup : Lookup) (name : String) (bound fallback : Nat)
    (h : number lookup name bound fallback ≠ fallback) :
    Spells lookup name bound (number lookup name bound fallback) := by
  unfold number at h ⊢
  cases hread : (lookup name).bind fun v => parseNat? bound (Text.trim v.toList) with
  | none =>
    rw [hread] at h
    exact absurd rfl h
  | some n =>
    obtain ⟨v, hv, hn⟩ := Option.bind_eq_some_iff.mp hread
    exact ⟨v, hv, hn⟩

theorem number_of_spells {name : String} {bound n : Nat} (h : Spells lookup name bound n)
    (fallback : Nat) : number lookup name bound fallback = n := by
  obtain ⟨v, hv, hn⟩ := h
  rw [number, hv, Option.bind_some, hn, Option.getD_some]

/-- What the variables give. -/
theorem ofLookup_eq_ok (h : Settings.ofLookup lookup = .ok s) :
    s.commandTimeoutMs ≠ 0 ∧
      s.brokerChannelCapacity = number lookup "BROKER_CHANNEL_CAPACITY" bound64 1024 ∧
      s.httpRequestTimeoutSecs = number lookup "HTTP_REQUEST_TIMEOUT_SECS" bound64 30 := by
  unfold Settings.ofLookup at h
  split at h
  · cases h
  · cases h
    refine ⟨?_, rfl, rfl⟩
    dsimp only
    split
    · decide
    · assumption

/-- A size is too large only if the variable says so. -/
theorem capacity_le_iff (h : Settings.ofLookup lookup = .ok s) :
    s.brokerChannelCapacity ≤ Broker.maxMailbox ↔
      ∀ n, Spells lookup "BROKER_CHANNEL_CAPACITY" bound64 n → n ≤ Broker.maxMailbox := by
  rw [(ofLookup_eq_ok h).2.1]
  refine ⟨fun hle n hn => number_of_spells hn 1024 ▸ hle, fun hall => ?_⟩
  by_cases hdefault : number lookup "BROKER_CHANNEL_CAPACITY" bound64 1024 = 1024
  · rw [hdefault]
    decide
  · exact hall _ (spells_of_number _ _ _ _ hdefault)

/-- **What accepted settings do to those who use them.** However long a command is told to wait, its
request waits some time, and if it is told no time at all, the time of the settings; and in every
run of a hub each connection has some time for a write. Mailboxes are of a size that can be made,
unless the variable for it spells a larger number; and only the time for a whole request to the web
interface can be none, if its variable spells zero. -/
theorem limits_in_use (h : Settings.ofLookup lookup = .ok s) :
    (∀ given, 0 < ((Client.init s.commandTimeout).timeoutFor given).nanos ∧
      ∀ b channel payload x b', Broker.request b channel payload
        ((Client.init s.commandTimeout).timeoutFor given) = (.ok x, b') →
        b'.exchanges[x]?.map (·.timeout) =
          some ((Client.init s.commandTimeout).timeoutFor given)) ∧
      (Client.init s.commandTimeout).timeoutFor .zero = s.commandTimeout ∧
      (∀ sys, Hub.System.Reachable [s.wsWriteTimeout] sys → sys.Patient) ∧
      (∀ ops, 1 ≤ (Broker.after s.brokerChannelCapacity ops).capacity ∧
        (Broker.Makeable (Broker.after s.brokerChannelCapacity ops).capacity ↔
          ∀ n, Spells lookup "BROKER_CHANNEL_CAPACITY" bound64 n → n ≤ Broker.maxMailbox)) ∧
      (s.httpRequestTimeout = .zero ↔ Spells lookup "HTTP_REQUEST_TIMEOUT_SECS" bound64 0) := by
  obtain ⟨hcommand, -, hhttp⟩ := ofLookup_eq_ok h
  refine ⟨fun given => ⟨Client.timeoutFor_pos _ given, fun b channel payload x b' hrequest =>
    Broker.timeout_of_request hrequest⟩, ?_, fun sys hsys => Hub.System.patient_reachable hsys,
    fun ops => ⟨(Broker.after s.brokerChannelCapacity ops).capacity_pos, ?_⟩, ?_⟩
  · have hnanos : s.commandTimeout.nanos ≠ 0 := by
      show s.commandTimeoutMs * 1000000 ≠ 0
      omega
    have hzero : Duration.zero.nanos = 0 := rfl
    rw [Client.timeoutFor, Duration.orDefault, if_pos hzero, Client.init]
    exact if_neg hnanos
  · rw [Broker.makeable_after, capacity_le_iff h]
  · have hzero : s.httpRequestTimeout = .zero ↔ s.httpRequestTimeoutSecs = 0 := by
      simp [Settings.httpRequestTimeout, Duration.ofSeconds, Duration.zero]
    rw [hzero, hhttp]
    refine ⟨fun hnone => ?_, fun hspells => number_of_spells hspells 30⟩
    have hspells := spells_of_number lookup "HTTP_REQUEST_TIMEOUT_SECS" bound64 30 (by omega)
    rwa [hnone] at hspells

/-- The three limits are set to zero. -/
def zeros : Lookup := fun name =>
  if name ∈ ["USERS_COMMAND_TIMEOUT_MS", "WS_WRITE_TIMEOUT_MS", "BROKER_CHANNEL_CAPACITY"] then
    some "0"
  else none

/-- The settings that come of it. -/
def zeroSettings : Settings where
  listenAddress := .v4 [0, 0, 0, 0] 8080
  databaseUrl := defaultDatabaseUrl
  databaseMaxConnections := 10
  databaseMinConnections := 2
  databaseConnectTimeoutSecs := 5
  persistenceEnabled := false
  commandTimeoutMs := defaultCommandTimeoutMs
  brokerChannelCapacity := 0
  wsWriteTimeoutMs := 0
  httpRequestTimeoutSecs := 30
  logFormat := .text

/-- With all limits at zero, a command waits for five seconds and a mailbox holds one message. -/
theorem limits_in_use_zeros :
    Settings.ofLookup zeros = .ok zeroSettings ∧
      ((Client.init zeroSettings.commandTimeout).timeoutFor .zero).text = "5s" ∧
      (∀ sys, Hub.System.Reachable [zeroSettings.wsWriteTimeout] sys → sys.Patient) ∧
      (Broker.after zeroSettings.brokerChannelCapacity []).capacity = 1 ∧
      Broker.Makeable (Broker.after zeroSettings.brokerChannelCapacity []).capacity := by
  have hlookup : Settings.ofLookup zeros = .ok zeroSettings := by decide +kernel
  obtain ⟨-, hcommand, hhub, hbroker, -⟩ := limits_in_use hlookup
  refine ⟨hlookup, ?_, hhub, rfl, (hbroker []).2.mpr fun n ⟨v, hv, hn⟩ => ?_⟩
  · rw [hcommand]
    decide +kernel
  · obtain rfl : "0" = v := Option.some.inj ((by decide : zeros _ = some "0").symm.trans hv)
    obtain rfl : 0 = n := Option.some.inj ((by decide +kernel : _ = some 0).symm.trans hn)
    decide

/-- The variable for the size of a mailbox spells the largest number of 64 bits. -/
def hugeMailbox : Lookup := fun name =>
  if name = "BROKER_CHANNEL_CAPACITY" then some "18446744073709551615" else none

/-- **Accepted settings can ask for mailboxes that cannot be made.** -/
theorem mailbox_too_large : ¬ ∀ (lookup : Lookup) (s : Settings),
    Settings.ofLookup lookup = .ok s →
      Broker.Makeable (Broker.init s.brokerChannelCapacity).capacity := by
  intro h
  have hlookup : (Settings.ofLookup hugeMailbox).toOption.map (·.brokerChannelCapacity) =
      some (Nat.pow 2 64 - 1) := by decide +kernel
  obtain ⟨s, hs, hcapacity⟩ := Option.map_eq_some_iff.mp hlookup
  have hok : Settings.ofLookup hugeMailbox = .ok s := by
    cases hresult : Settings.ofLookup hugeMailbox with
    | error e =>
      rw [hresult] at hs
      cases hs
    | ok s' =>
      rw [hresult] at hs
      cases hs
      rfl
  have hmakeable := h hugeMailbox s hok
  rw [hcapacity] at hmakeable
  exact absurd hmakeable (by decide)

end Config

end UserDirectory

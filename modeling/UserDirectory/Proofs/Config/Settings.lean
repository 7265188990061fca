import UserDirectory.Config.Settings
import UserDirectory.Proofs.Config.SocketAddress

/-!
# Each setting follows its own variable

What a text means for a setting is said here without the readers: a number (`IsNumeral`), a word
(`IsWord`) or an address (`SocketAddress.Spelled`). A setting is what the text of its variable
means, or its default where that means nothing (`Tells`); only the listen address, once it is set,
has no default to fall back on. `settings_follow_variables` says that the settings are those that
follow their variables so, one by one, and that there are none only for want of an address.

A reader that finds the meaning of a text, if there is one, gives what is told
(`tells_of_reads`), so for every kind of setting it is enough to look at its reader. What is told
leaves no choice (`Tells.unique`), and so a setting depends on no variable but its own.
-/

namespace UserDirectory.Config

variable {lookup : Lookup} {name : String}

/-! ## What a text means -/

/-- A number after an optional plus sign, with blanks at the ends or without. -/
def IsNumeral (s : String) (n : Nat) : Prop :=
  ∃ plus digits, Text.Spaces (plus ++ digits) s.toList ∧ (plus = [] ∨ plus = ['+']) ∧
    Decimal.Spells digits n

/-- A number of a range that includes its lower end. -/
def NumeralIn (least bound : Nat) (s : String) (n : Nat) : Prop :=
  IsNumeral s n ∧ least ≤ n ∧ n < bound

/-- A word but for the case of the letters A to Z, with blanks at the ends or without. -/
def IsWord (word s : String) : Prop :=
  ∃ core, Text.Spaces core s.toList ∧ core.map Char.toLower = word.toList

/-- A value that has names, by one of them. -/
def Says {α : Type} (names : α → List String) (s : String) (a : α) : Prop :=
  ∃ word ∈ names a, IsWord word s

/-- The names of the truth values. -/
def truthNames : Bool → List String
  | true => ["true", "1"]
  | false => ["false", "0"]

/-- The names of the forms of log lines. -/
def formatNames : LogFormat → List String
  | .text => ["text"]
  | .json => ["json"]

/-- Digits are read as the number that they spell, if it is below the bound. -/
theorem readDigits_eq_some_iff {bound n : Nat} {cs : List Char} :
    (if cs.isEmpty then none
      else (cs.mapM Decimal.digit?).bind fun ds =>
        if Decimal.value ds < bound then some (Decimal.value ds) else none) = some n ↔
      Decimal.Spells cs n ∧ n < bound := by
  have hmapM : ∀ {ds : List Decimal.Digit},
      cs.mapM Decimal.digit? = some ds ↔ cs.map id = ds.map Decimal.Digit.char :=
    Text.mapM_eq_some_iff @Decimal.digit?_eq_some_iff
  have hempty : ∀ {ds : List Decimal.Digit}, cs.map id = ds.map Decimal.Digit.char →
      (cs.isEmpty = true ↔ ds = []) := by
    intro ds hds
    rw [List.isEmpty_iff, ← List.map_eq_nil_iff (f := id), hds, List.map_eq_nil_iff]
  rw [Decimal.spells_iff]
  constructor
  · intro h
    split at h
    · cases h
    · rename_i hne
      obtain ⟨ds, hds, h⟩ := Option.bind_eq_some_iff.mp h
      split at h
      · rename_i hbound
        cases h
        exact ⟨⟨ds, mt (hempty (hmapM.mp hds)).mpr hne, hmapM.mp hds, rfl⟩, hbound⟩
      · cases h
  · intro h
    obtain ⟨⟨ds, hne, hds, rfl⟩, hbound⟩ := h
    rw [if_neg (mt (hempty hds).mp hne), hmapM.mpr hds, Option.bind_some, if_pos hbound]

/-- A sign in front is taken off, and no digit is taken for one. -/
theorem spells_unsigned_iff {cs : List Char} {n : Nat} :
    Decimal.Spells (if cs.head? = some '+' then cs.drop 1 else cs) n ↔
      ∃ plus digits, cs = plus ++ digits ∧ (plus = [] ∨ plus = ['+']) ∧
        Decimal.Spells digits n := by
  constructor
  · intro h
    split at h
    · rename_i hplus
      obtain ⟨rest, rfl⟩ := List.head?_eq_some_iff.mp hplus
      exact ⟨['+'], rest, rfl, .inr rfl, h⟩
    · exact ⟨[], cs, rfl, .inl rfl, h⟩
  · intro h
    obtain ⟨plus, digits, rfl, hplus, hspells⟩ := h
    rcases hplus with rfl | rfl
    · have hdigit : ∀ d : Decimal.Digit, d.char ≠ '+' := by decide
      obtain ⟨ds, rfl, hds⟩ := hspells
      obtain ⟨d, rest, rfl⟩ := List.exists_cons_of_ne_nil (denotes_iff.mp hds).1
      rw [if_neg]
      · exact ⟨d :: rest, rfl, hds⟩
      · intro hhead
        exact hdigit d (Option.some.inj hhead)
    · exact hspells

theorem parseNat?_eq_some_iff {bound n : Nat} {cs : List Char} :
    parseNat? bound cs = some n ↔
      (∃ plus digits, cs = plus ++ digits ∧ (plus = [] ∨ plus = ['+']) ∧
        Decimal.Spells digits n) ∧ n < bound := by
  rw [← spells_unsigned_iff]
  exact readDigits_eq_some_iff

theorem parseNat?_trim {bound n : Nat} {s : String} :
    parseNat? bound (Text.trim s.toList) = some n ↔ NumeralIn 0 bound s n := by
  rw [parseNat?_eq_some_iff, NumeralIn, IsNumeral]
  constructor
  · intro h
    obtain ⟨⟨plus, digits, htrim, hplus, hspells⟩, hbound⟩ := h
    exact ⟨⟨plus, digits, Text.trim_eq_iff.mp htrim, hplus, hspells⟩, Nat.zero_le n, hbound⟩
  · intro h
    obtain ⟨⟨plus, digits, hspaces, hplus, hspells⟩, -, hbound⟩ := h
    exact ⟨⟨plus, digits, Text.trim_eq_iff.mpr hspaces, hplus, hspells⟩, hbound⟩

theorem word?_eq_some_iff {word : String} :
    word? lookup name = some word ↔ ∃ s ∈ lookup name, IsWord word s := by
  simp only [word?, Option.map_eq_some_iff, Option.mem_def, IsWord, ← Text.trim_eq_iff,
    exists_eq_left', ← String.toList_inj, String.toList_ofList]

/-! ## What a variable tells -/

/-- A value is what the text of a variable means, and a default if the variable is not set or its
text means nothing. -/
structure Tells {α : Type} (means : String → α → Prop) (fallback : α) (v : Option String) (a : α) :
    Prop where
  told : ∀ s ∈ v, ∀ b, means s b → a = b
  untold : (∀ s ∈ v, ∀ b, ¬ means s b) → a = fallback

section

variable {α : Type} {means : String → α → Prop} {fallback : α} {v : Option String}

theorem Tells.unique {a b : α} (ha : Tells means fallback v a) (hb : Tells means fallback v b) :
    a = b := by
  by_cases h : ∃ s ∈ v, ∃ c, means s c
  · obtain ⟨s, hs, c, hc⟩ := h
    rw [ha.told s hs c hc, hb.told s hs c hc]
  · have hnone : ∀ s ∈ v, ∀ c, ¬ means s c := fun s hs c hc => h ⟨s, hs, c, hc⟩
    rw [ha.untold hnone, hb.untold hnone]

/-- What a reader finds, or else the default, is what the variable tells. -/
theorem tells_of_reads {read : String → Option α} (h : ∀ s a, read s = some a ↔ means s a) :
    Tells means fallback v ((v.bind read).getD fallback) where
  told s hs a ha := by
    obtain rfl := Option.mem_def.mp hs
    rw [Option.bind_some, (h s a).mpr ha, Option.getD_some]
  untold hnone := by
    have hbind : v.bind read = none := by
      rw [Option.bind_eq_none_iff]
      intro s hs
      rw [Option.eq_none_iff_forall_ne_some]
      intro a ha
      exact hnone s hs a ((h s a).mp ha)
    rw [hbind, Option.getD_none]

end

theorem number_tells (bound fallback : Nat) :
    Tells (NumeralIn 0 bound) fallback (lookup name) (number lookup name bound fallback) :=
  tells_of_reads fun _ _ => parseNat?_trim

/-- A number in whose place zero is no better than nothing. -/
theorem Tells.positive {v : Option String} {n bound fallback : Nat}
    (h : Tells (NumeralIn 0 bound) 0 v n) :
    Tells (NumeralIn 1 bound) fallback v (if n = 0 then fallback else n) where
  told s hs m hm := by
    obtain ⟨hnumeral, hpos, hbound⟩ := hm
    obtain rfl : n = m := h.told s hs m ⟨hnumeral, Nat.zero_le m, hbound⟩
    exact if_neg (by omega)
  untold hnone := by
    by_cases hzero : n = 0
    · exact if_pos hzero
    · -- a number that is not zero was told
      refine absurd (h.untold ?_) hzero
      intro s hs m hm
      obtain rfl : n = m := h.told s hs m hm
      exact hnone s hs n ⟨hm.1, by omega, hm.2.2⟩

/-- What a word tells is told by a value that has the word for a name, whatever it is. -/
theorem tells_of_word {α : Type} {names : α → List String} {fallback a : α}
    (hsome : ∀ word, word? lookup name = some word → ∀ b, word ∈ names b → a = b)
    (hnone : (∀ word, word? lookup name = some word → ∀ b, word ∉ names b) → a = fallback) :
    Tells (Says names) fallback (lookup name) a where
  told s hs b hb := by
    obtain ⟨word, hword, hsays⟩ := hb
    exact hsome word (word?_eq_some_iff.mpr ⟨s, hs, hsays⟩) b hword
  untold h := by
    refine hnone ?_
    intro word hread b hword
    obtain ⟨s, hs, hsays⟩ := word?_eq_some_iff.mp hread
    exact h s hs b ⟨word, hword, hsays⟩

theorem flag_tells (fallback : Bool) :
    Tells (Says truthNames) fallback (lookup name) (flag lookup name fallback) := by
  apply tells_of_word
  · intro word hread b hword
    rw [flag, hread]
    cases b with
    | true =>
      refine if_pos ?_
      simpa [truthNames] using hword
    | false =>
      have hfalse : word = "false" ∨ word = "0" := by simpa [truthNames] using hword
      rcases hfalse with rfl | rfl <;> rfl
  · intro hnone
    rw [flag]
    cases hread : word? lookup name with
    | none => rfl
    | some word =>
      have htrue : ¬ (word = "true" ∨ word = "1") := by
        simpa [truthNames] using hnone word hread true
      have hfalse : ¬ (word = "false" ∨ word = "0") := by
        simpa [truthNames] using hnone word hread false
      simp [htrue, hfalse]

theorem logFormat_tells :
    Tells (Says formatNames) .text (lookup name)
      (if word? lookup name = some "json" then .json else .text) := by
  apply tells_of_word
  · intro word hread b hword
    rw [hread]
    cases b with
    | text =>
      obtain rfl := List.mem_singleton.mp hword
      rfl
    | json =>
      obtain rfl := List.mem_singleton.mp hword
      rfl
  · intro hnone
    refine if_neg ?_
    intro hread
    exact hnone "json" hread .json (List.mem_singleton.mpr rfl)

/-! ## The settings -/

/-- The settings that are numbers. -/
inductive NumberSetting
  | databaseMaxConnections
  | databaseMinConnections
  | databaseConnectTimeoutSecs
  | commandTimeoutMs
  | brokerChannelCapacity
  | wsWriteTimeoutMs
  | httpRequestTimeoutSecs

namespace NumberSetting

/-- The variable that the number is read from. -/
def key : NumberSetting → String
  | databaseMaxConnections => "DATABASE_MAX_CONNECTIONS"
  | databaseMinConnections => "DATABASE_MIN_CONNECTIONS"
  | databaseConnectTimeoutSecs => "DATABASE_CONNECT_TIMEOUT_SECS"
  | commandTimeoutMs => "USERS_COMMAND_TIMEOUT_MS"
  | brokerChannelCapacity => "BROKER_CHANNEL_CAPACITY"
  | wsWriteTimeoutMs => "WS_WRITE_TIMEOUT_MS"
  | httpRequestTimeoutSecs => "HTTP_REQUEST_TIMEOUT_SECS"

def get : NumberSetting → Settings → Nat
  | databaseMaxConnections, s => s.databaseMaxConnections
  | databaseMinConnections, s => s.databaseMinConnections
  | databaseConnectTimeoutSecs, s => s.databaseConnectTimeoutSecs
  | commandTimeoutMs, s => s.commandTimeoutMs
  | brokerChannelCapacity, s => s.brokerChannelCapacity
  | wsWriteTimeoutMs, s => s.wsWriteTimeoutMs
  | httpRequestTimeoutSecs, s => s.httpRequestTimeoutSecs

/-- The smallest number that counts: a command that may take no time is given the default. -/
def least : NumberSetting → Nat
  | commandTimeoutMs => 1
  | _ => 0

/-- The numbers that can be held are below this one. -/
def bound : NumberSetting → Nat
  | databaseMaxConnections | databaseMinConnections => bound32
  | _ => bound64

def fallback : NumberSetting → Nat
  | databaseMaxConnections => 10
  | databaseMinConnections => 2
  | databaseConnectTimeoutSecs => 5
  | commandTimeoutMs => defaultCommandTimeoutMs
  | brokerChannelCapacity => 1024
  | wsWriteTimeoutMs => 5000
  | httpRequestTimeoutSecs => 30

end NumberSetting

/-- A setting. -/
inductive Setting
  | listenAddress
  | databaseUrl
  | persistenceEnabled
  | logFormat
  | number (x : NumberSetting)

namespace Setting

/-- The values of a setting. -/
def Value : Setting → Type
  | listenAddress => SocketAddress
  | databaseUrl => String
  | persistenceEnabled => Bool
  | logFormat => LogFormat
  | number _ => Nat

/-- The variable that a setting is read from. -/
def key : Setting → String
  | listenAddress => "LISTEN_ADDR"
  | databaseUrl => "DATABASE_URL"
  | persistenceEnabled => "PERSISTENCE_ENABLED"
  | logFormat => "LOG_FORMAT"
  | number x => x.key

def get : (x : Setting) → Settings → x.Value
  | listenAddress, s => s.listenAddress
  | databaseUrl, s => s.databaseUrl
  | persistenceEnabled, s => s.persistenceEnabled
  | logFormat, s => s.logFormat
  | number x, s => x.get s

/-- Whether the value of a setting is what its variable makes it. -/
def Follows : (x : Setting) → Option String → x.Value → Prop
  | listenAddress, v, address => SocketAddress.Spelled address (v.getD defaultListenAddress)
  | databaseUrl, v, url => url = v.getD defaultDatabaseUrl
  | persistenceEnabled, v, enabled => Tells (Says truthNames) false v enabled
  | logFormat, v, format => Tells (Says formatNames) .text v format
  | number x, v, n => Tells (NumeralIn x.least x.bound) x.fallback v n

theorem Follows.unique {x : Setting} {v : Option String} {a b : x.Value} (ha : x.Follows v a)
    (hb : x.Follows v b) : a = b := by
  cases x with
  | listenAddress =>
    have hread := SocketAddress.parse?_eq_some_iff.mpr ha
    rw [SocketAddress.parse?_eq_some_iff.mpr hb] at hread
    exact (Option.some.inj hread).symm
  | databaseUrl => exact Eq.trans ha hb.symm
  | persistenceEnabled => exact Tells.unique ha hb
  | logFormat => exact Tells.unique ha hb
  | number x => exact Tells.unique ha hb

/-- Settings are the same if each of them is. -/
theorem ext_get {s s' : Settings} (h : ∀ x : Setting, x.get s = x.get s') : s = s' := by
  have hlisten : s.listenAddress = s'.listenAddress := h .listenAddress
  have hurl : s.databaseUrl = s'.databaseUrl := h .databaseUrl
  have henabled : s.persistenceEnabled = s'.persistenceEnabled := h .persistenceEnabled
  have hformat : s.logFormat = s'.logFormat := h .logFormat
  have hnumber : ∀ x : NumberSetting, x.get s = x.get s' := fun x => h (.number x)
  have hmax := hnumber .databaseMaxConnections
  have hmin := hnumber .databaseMinConnections
  have hconnect := hnumber .databaseConnectTimeoutSecs
  have hcommand := hnumber .commandTimeoutMs
  have hcapacity := hnumber .brokerChannelCapacity
  have hwrite := hnumber .wsWriteTimeoutMs
  have hrequest := hnumber .httpRequestTimeoutSecs
  cases s
  cases s'
  simp_all only [NumberSetting.get]

end Setting

theorem follows_of_ofLookup {s : Settings} (h : Settings.ofLookup lookup = .ok s) (x : Setting) :
    x.Follows (lookup x.key) (x.get s) := by
  unfold Settings.ofLookup at h
  split at h
  · cases h
  · rename_i address haddress
    cases h
    cases x with
    | listenAddress => exact SocketAddress.parse?_eq_some_iff.mp haddress
    | databaseUrl => rfl
    | persistenceEnabled => exact flag_tells false
    | logFormat => exact logFormat_tells
    | number x =>
      cases x with
      | commandTimeoutMs => exact (number_tells bound64 0).positive
      | databaseMaxConnections => exact number_tells bound32 10
      | databaseMinConnections => exact number_tells bound32 2
      | databaseConnectTimeoutSecs => exact number_tells bound64 5
      | brokerChannelCapacity => exact number_tells bound64 1024
      | wsWriteTimeoutMs => exact number_tells bound64 5000
      | httpRequestTimeoutSecs => exact number_tells bound64 30

/-- There are settings as soon as there is an address. -/
theorem exists_ofLookup {address : SocketAddress}
    (h : address.Spelled ((lookup "LISTEN_ADDR").getD defaultListenAddress)) :
    ∃ s, Settings.ofLookup lookup = .ok s := by
  unfold Settings.ofLookup
  rw [SocketAddress.parse?_eq_some_iff.mpr h]
  exact ⟨_, rfl⟩

theorem ofLookup_eq_ok_iff {s : Settings} :
    Settings.ofLookup lookup = .ok s ↔ ∀ x : Setting, x.Follows (lookup x.key) (x.get s) := by
  constructor
  · exact follows_of_ofLookup
  · intro h
    -- there are settings that follow the variables, and only one can
    obtain ⟨s', hs'⟩ := exists_ofLookup (h .listenAddress)
    rw [hs', Setting.ext_get fun x => (follows_of_ofLookup hs' x).unique (h x)]

/-- The default of the listen address is an address. -/
theorem spelled_defaultListenAddress :
    (SocketAddress.v4 [0, 0, 0, 0] 8080).Spelled defaultListenAddress :=
  SocketAddress.parse?_eq_some_iff.mp (by decide +kernel)

theorem ofLookup_eq_error_iff :
    Settings.ofLookup lookup = .error .listenAddress ↔
      ∃ s, lookup "LISTEN_ADDR" = some s ∧ ∀ address, ¬ SocketAddress.Spelled address s := by
  constructor
  · intro h
    -- a text that is an address would give settings
    have hnone : ∀ address : SocketAddress,
        ¬ address.Spelled ((lookup "LISTEN_ADDR").getD defaultListenAddress) := by
      intro address haddress
      obtain ⟨s, hs⟩ := exists_ofLookup haddress
      rw [h] at hs
      cases hs
    cases hset : lookup "LISTEN_ADDR" with
    | none =>
      rw [hset] at hnone
      exact absurd spelled_defaultListenAddress (hnone _)
    | some s =>
      rw [hset] at hnone
      exact ⟨s, rfl, hnone⟩
  · intro h
    obtain ⟨s, hset, hnone⟩ := h
    cases hresult : Settings.ofLookup lookup with
    | error e =>
      cases e
      rfl
    | ok settings =>
      have haddress := follows_of_ofLookup hresult .listenAddress
      rw [Setting.Follows, Setting.key, hset] at haddress
      exact absurd haddress (hnone _)

/-- **Settings follow their variables one by one.** There are none if and only if the listen address
is set to a text that is none. Otherwise they are those of which each is what its own variable tells;
so where two sets of variables agree on the variable of a setting, they agree on the setting. -/
theorem settings_follow_variables (lookup : Lookup) :
    (Settings.ofLookup lookup = .error .listenAddress ↔
      ∃ s, lookup "LISTEN_ADDR" = some s ∧ ∀ address, ¬ SocketAddress.Spelled address s) ∧
      (∀ s, Settings.ofLookup lookup = .ok s ↔
        ∀ x : Setting, x.Follows (lookup x.key) (x.get s)) ∧
      ∀ (lookup' : Lookup) (s s' : Settings) (x : Setting), Settings.ofLookup lookup = .ok s →
        Settings.ofLookup lookup' = .ok s' → lookup x.key = lookup' x.key → x.get s = x.get s' := by
  refine ⟨ofLookup_eq_error_iff, fun s => ofLookup_eq_ok_iff, ?_⟩
  intro lookup' s s' x hs hs' hsame
  have hfollows := follows_of_ofLookup hs x
  rw [hsame] at hfollows
  exact hfollows.unique (follows_of_ofLookup hs' x)

/-- Blanks and a sign around a number, one number too large by one, a time of no length, words in
several cases, and an address with dots, a scope and a port with a zero in front. -/
def oddlySpelled : Lookup := fun name =>
  [("LISTEN_ADDR", "[::1.2.3.4%7]:0080"), ("DATABASE_MAX_CONNECTIONS", "\u3000+0012\t"),
    ("DATABASE_MIN_CONNECTIONS", "4294967296"), ("USERS_COMMAND_TIMEOUT_MS", "000"),
    ("PERSISTENCE_ENABLED", " TruE"), ("LOG_FORMAT", "JSON\n")].lookup name

/-- The settings that come of it. -/
def oddSettings : Settings where
  listenAddress := .v6 [0, 0, 0, 0, 0, 0, 0x102, 0x304] 7 80
  databaseUrl := defaultDatabaseUrl
  databaseMaxConnections := 12
  databaseMinConnections := 2
  databaseConnectTimeoutSecs := 5
  persistenceEnabled := true
  commandTimeoutMs := defaultCommandTimeoutMs
  brokerChannelCapacity := 1024
  wsWriteTimeoutMs := 5000
  httpRequestTimeoutSecs := 30
  logFormat := .json

/-- One of these variables with the same text, and another with a word that is no truth value. -/
def partlySpelled : Lookup := fun name =>
  [("DATABASE_MAX_CONNECTIONS", "\u3000+0012\t"), ("PERSISTENCE_ENABLED", "yes")].lookup name

/-- The settings that come of it. -/
def partSettings : Settings :=
  { oddSettings with
    listenAddress := .v4 [0, 0, 0, 0] 8080
    persistenceEnabled := false
    logFormat := .text }

/-- The number is the same whatever else is set; one more than can be held is the default, and so is
a word that is no truth value. -/
theorem settings_follow_variables_oddlySpelled :
    Settings.ofLookup oddlySpelled = .ok oddSettings ∧
      Settings.ofLookup partlySpelled = .ok partSettings ∧
      oddlySpelled "DATABASE_MAX_CONNECTIONS" = partlySpelled "DATABASE_MAX_CONNECTIONS" ∧
      oddSettings.databaseMaxConnections = partSettings.databaseMaxConnections ∧
      SocketAddress.Spelled oddSettings.listenAddress "[::1.2.3.4%7]:0080" ∧
      Tells (NumeralIn 0 bound32) 2 (some "4294967296") oddSettings.databaseMinConnections ∧
      Tells (Says truthNames) false (some "yes") partSettings.persistenceEnabled := by
  have hodd : Settings.ofLookup oddlySpelled = .ok oddSettings := by decide +kernel
  have hpart : Settings.ofLookup partlySpelled = .ok partSettings := by decide +kernel
  obtain ⟨-, hfollows, hsame⟩ := settings_follow_variables oddlySpelled
  have hpartFollows := (settings_follow_variables partlySpelled).2.1 partSettings
  exact ⟨hodd, hpart, rfl, hsame partlySpelled oddSettings partSettings
    (.number .databaseMaxConnections) hodd hpart rfl, (hfollows oddSettings).mp hodd .listenAddress,
    (hfollows oddSettings).mp hodd (.number .databaseMinConnections),
    hpartFollows.mp hpart .persistenceEnabled⟩

end UserDirectory.Config

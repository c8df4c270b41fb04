import PersonalAssistant.Egress.Allowlist
import PersonalAssistant.Lib.Loops

/-!
# Entries of the allowlist

Without explicit entries the allowlist is derived from the configured provider URLs: the authority of each is
written as `scheme://host`, and read again by the parser of entries. That parser is stricter than the splitter
of URLs: it knows no digits or signs in a scheme and no colons in a host, so the entry derived from a URL
with an IPv6 literal is refused, and the configuration with it.
-/
namespace PersonalAssistant

open Lib

/-- What the host knows of characters beyond ASCII. Lower-casing is idempotent, brings no blanks to the ends
of a text and no delimiters into it. -/
structure TextTables extends Url.Tables where
  isalpha : String → Bool
  isprintable : String → Bool
  repr : String → String
  isalpha_ascii : ∀ s : String, (∀ c ∈ s.toList, c.toNat < 128) →
    isalpha s = (s.toList != [] && s.toList.all Char.isAlpha)
  isprintable_ascii : ∀ s : String, (∀ c ∈ s.toList, c.toNat < 128) →
    isprintable s = s.toList.all fun c => 0x20 ≤ c.toNat && c.toNat < 0x7F
  lower_lower : ∀ s, lower (lower s) = lower s
  strip_lower : ∀ s, strip s = s → strip (lower s) = lower s
  mem_lower : ∀ s, ∀ c ∈ [':', '/', '@'], c ∈ (lower s).toList → c ∈ s.toList

/-- `text.partition("://")`, and `none` where the separator is missing. -/
def partitionScheme : List Char → Option (List Char × List Char)
  | [] => none
  | c :: cs =>
    if "://".toList.isPrefixOf (c :: cs) then some ([], (c :: cs).drop 3)
    else (partitionScheme cs).map fun parts => (c :: parts.1, parts.2)

variable (tables : TextTables)

/-- A host that an entry cannot name. -/
def refusedHost (host : String) : Bool :=
  host == "" || host.toList.contains '*' || host.toList.contains '/' || host.toList.contains ':' ||
    host.toList.contains '@' || !tables.isprintable host

/-- `_parse_entry`. -/
def parseEntry (value : String) : Except PyError (String × String) :=
  let candidate := strip value
  if candidate = "" then .error (.valueError "egress allowlist entries must be non-empty")
  else
    let (scheme, host) :=
      match partitionScheme candidate.toList with
      | some parts => (String.ofList parts.1, String.ofList parts.2)
      | none => ("https", candidate)
    let scheme := tables.lower (strip scheme)
    let host := tables.lower (strip host)
    if !tables.isalpha scheme then
      .error (.valueError ("invalid egress allowlist entry scheme: " ++ tables.repr value))
    else if refusedHost tables host then
      .error (.valueError ("invalid egress allowlist entry host: " ++ tables.repr value))
    else .ok (scheme, host)

def EgressAllowlist.fromEntries (rawEntries : List String) : Except PyError EgressAllowlist := do
  return ⟨← rawEntries.mapM (parseEntry tables)⟩

/-! ## Derived entries -/

def defaultTelegramApiUrl : String := "https://api.telegram.org"

def defaultWhatsappApiUrl : String := "https://graph.facebook.com"

def defaultWhatsappMediaUrl : String := "https://lookaside.fbsbx.com"

/-- `f"{authority[0]}://{authority[1]}"`. -/
def entryText (authority : String × String) : String := authority.1 ++ "://" ++ authority.2

/-- The entry of a configured base URL, if it has one. -/
def derivedEntry (baseUrl : Option String) : Option String := do
  let url ← baseUrl
  if strip url = "" then none
  else (urlAuthority tables.toTables url).map entryText

def deriveEgressEntries (llmBaseUrl transcriptionBaseUrl ttsBaseUrl : Option String)
    (telegramBotTokenConfigured whatsappAccessTokenConfigured : Bool) : List String :=
  [llmBaseUrl, transcriptionBaseUrl, ttsBaseUrl].filterMap (derivedEntry tables) ++
    (if telegramBotTokenConfigured then [defaultTelegramApiUrl] else []) ++
    (if whatsappAccessTokenConfigured then [defaultWhatsappApiUrl, defaultWhatsappMediaUrl] else [])

/-- The targets under their labels, one after another. -/
def requireStartupCoverage (allowlist : EgressAllowlist) : List (String × String) → Except PyError Unit
  | [] => .ok ()
  | (label, url) :: required =>
    if allowlist.allows tables.toTables url then requireStartupCoverage allowlist required
    else
      let host := ((urlAuthority tables.toTables url).map Prod.snd).getD "unknown"
      .error (.valueError ("EGRESS_ALLOWED_HOSTS does not cover the " ++ label ++ " target host: " ++ host))

/-! ## The validation of the settings -/

/-- The settings that name targets. -/
structure EgressSettings where
  llmProvider : String
  llmBaseUrl : Option String
  transcriptionProvider : String
  transcriptionBaseUrl : Option String
  ttsProvider : String
  ttsBaseUrl : Option String
  telegramBotToken : Option String
  whatsappAccessToken : Option String
  egressAllowedHosts : List String

def disabledProviders : List String := ["", "disabled", "none"]

/-- `bool(value)` of a text that may be missing. -/
def isSet (value : Option String) : Bool := value.any (· ≠ "")

namespace EgressSettings

variable (settings : EgressSettings)

/-- The target of a provider, unless it is disabled or has no URL. -/
def providerTarget (label provider : String) (baseUrl : Option String) : List (String × String) :=
  if !disabledProviders.contains provider then (baseUrl.filter (· ≠ "")).toList.map fun url => (label, url) else []

def requiredEgress : List (String × String) :=
  providerTarget "LLM_PROVIDER" settings.llmProvider settings.llmBaseUrl ++
    providerTarget "TRANSCRIPTION_PROVIDER" settings.transcriptionProvider settings.transcriptionBaseUrl ++
    providerTarget "TTS_PROVIDER" settings.ttsProvider settings.ttsBaseUrl ++
    (if isSet settings.telegramBotToken then [("TELEGRAM_BOT_TOKEN", defaultTelegramApiUrl)] else []) ++
    (if isSet settings.whatsappAccessToken then [("WHATSAPP_ACCESS_TOKEN", defaultWhatsappApiUrl)] else [])

def derivedEgress : List String :=
  deriveEgressEntries tables settings.llmBaseUrl settings.transcriptionBaseUrl settings.ttsBaseUrl
    (isSet settings.telegramBotToken) (isSet settings.whatsappAccessToken)

/-- `_validate_egress`: the entries it writes to the settings. -/
def validateEgress : Except PyError (List String) := do
  let explicitEgress := (settings.egressAllowedHosts.filter fun entry => strip entry ≠ "").map strip
  let effectiveEgress := if explicitEgress = [] then settings.derivedEgress tables else explicitEgress
  let allowlist ← EgressAllowlist.fromEntries tables effectiveEgress
  requireStartupCoverage tables allowlist settings.requiredEgress
  return effectiveEgress

/-- The configured provider URLs. -/
def baseUrls : List String :=
  [settings.llmBaseUrl, settings.transcriptionBaseUrl, settings.ttsBaseUrl].filterMap (·.filter (· ≠ ""))

/-- The URLs of the configured channels. -/
def channelUrls : List String :=
  (if isSet settings.telegramBotToken then [defaultTelegramApiUrl] else []) ++
    (if isSet settings.whatsappAccessToken then [defaultWhatsappApiUrl, defaultWhatsappMediaUrl] else [])

end EgressSettings

/-! ## Authorities as entries -/

variable {tables} {scheme host url : String}

/-- What is known of a scheme and a host that the splitter reads. -/
structure IsAuthority (tables : TextTables) (scheme host : String) : Prop where
  scheme_ne : scheme ≠ ""
  scheme_strip : strip scheme = scheme
  scheme_lower : tables.lower scheme = scheme
  scheme_colon : ':' ∉ scheme.toList
  host_ne : host ≠ ""
  host_strip : strip host = host
  host_lower : tables.lower host = host
  host_slash : '/' ∉ host.toList
  host_at : '@' ∉ host.toList

theorem mem_of_mem_lower_strip {s : String} {c : Char} (hc : c ∈ [':', '/', '@'])
    (h : c ∈ (tables.lower (strip s)).toList) : c ∈ s.toList := by
  have hmem := tables.mem_lower (strip s) c hc h
  rw [strip, toList_stripBy] at hmem
  exact (List.dropWhile_subset _) ((List.rdropWhile_prefix _ _).subset hmem)

theorem isAuthority_of_urlAuthority (h : urlAuthority tables.toTables url = some (scheme, host)) :
    IsAuthority tables scheme host := by
  unfold urlAuthority at h
  split at h
  · cases h
  rename_i parts hsplit
  dsimp only at h
  split_ifs at h with hne
  obtain ⟨rfl, rfl⟩ := Prod.mk.inj (Option.some.inj h)
  rw [not_or] at hne
  obtain ⟨hcolon, hslash⟩ := Url.notMem_of_urlsplit hsplit
  have hhost : ∀ c ∈ [':', '/', '@'], c ∈ ((parts.hostname tables.toTables).getD "").toList →
      c ∈ parts.netloc.toList ∧ c ≠ '@' := by
    intro c hc hmem
    cases hname : parts.hostname tables.toTables with
    | none => simp [hname] at hmem
    | some name =>
      rw [hname, Option.getD_some] at hmem
      exact Url.mem_hostname hname (fun s => tables.mem_lower s c hc) hmem
  exact {
    scheme_ne := hne.1
    scheme_strip := tables.strip_lower _ (stripBy_stripBy _)
    scheme_lower := tables.lower_lower _
    scheme_colon := fun hmem => hcolon (mem_of_mem_lower_strip (by simp) hmem)
    host_ne := hne.2
    host_strip := tables.strip_lower _ (stripBy_stripBy _)
    host_lower := tables.lower_lower _
    host_slash := fun hmem => hslash (hhost '/' (by simp) (mem_of_mem_lower_strip (by simp) hmem)).1
    host_at := fun hmem => (hhost '@' (by simp) (mem_of_mem_lower_strip (by simp) hmem)).2 rfl }

theorem partitionScheme_append {scheme : List Char} (h : ':' ∉ scheme) (host : List Char) :
    partitionScheme (scheme ++ ("://".toList ++ host)) = some (scheme, host) := by
  induction scheme with
  | nil => rfl
  | cons c scheme ih =>
    have hc : ("://".toList).isPrefixOf (c :: (scheme ++ ("://".toList ++ host))) = false := by
      have hne : ':' ≠ c := fun hc => h (hc ▸ List.mem_cons_self)
      simp [List.isPrefixOf, hne]
    rw [List.cons_append, partitionScheme, hc, ih fun hmem => h (List.mem_cons_of_mem c hmem)]
    rfl

theorem toList_ne_nil {s : String} (h : s ≠ "") : s.toList ≠ [] := fun hnil => h (String.toList_inj.mp hnil)

theorem strip_entryText (h : IsAuthority tables scheme host) :
    strip (entryText (scheme, host)) = entryText (scheme, host) := by
  have hscheme : stripList isSpace scheme.toList = scheme.toList := by
    rw [← toList_stripBy]
    exact congrArg String.toList h.scheme_strip
  have hhost : stripList isSpace host.toList = host.toList := by
    rw [← toList_stripBy]
    exact congrArg String.toList h.host_strip
  rw [strip, ← String.toList_inj, toList_stripBy, entryText]
  simp only [String.toList_append, List.append_assoc]
  refine stripList_eq_self (fun c hc => ?_) fun c hc => ?_
  · refine head?_stripList scheme.toList c ?_
    rwa [hscheme, ← List.head?_append_of_ne_nil _ (toList_ne_nil h.scheme_ne)]
  · refine getLast?_stripList host.toList c ?_
    rwa [hhost, ← List.getLast?_append_of_ne_nil _ (toList_ne_nil h.host_ne), List.append_assoc]

/-- What an entry can say: a scheme of letters, and a host without colons or wild cards that prints. -/
structure Expressible (tables : TextTables) (scheme host : String) : Prop where
  scheme : tables.isalpha scheme = true
  wildcard : '*' ∉ host.toList
  colon : ':' ∉ host.toList
  printable : tables.isprintable host = true

theorem IsAuthority.refusedHost_eq_false (h : IsAuthority tables scheme host) :
    refusedHost tables host = false ↔
      '*' ∉ host.toList ∧ ':' ∉ host.toList ∧ tables.isprintable host = true := by
  simp [refusedHost, h.host_ne, h.host_slash, h.host_at, and_assoc]

/-- An authority written as an entry is read back, or refused. -/
theorem parseEntry_authority (h : IsAuthority tables scheme host) (entry : String × String) :
    parseEntry tables (entryText (scheme, host)) = .ok entry ↔
      Expressible tables scheme host ∧ entry = (scheme, host) := by
  have hparts : partitionScheme (entryText (scheme, host)).toList = some (scheme.toList, host.toList) := by
    rw [entryText, String.toList_append, String.toList_append, List.append_assoc]
    exact partitionScheme_append h.scheme_colon _
  have hne : entryText (scheme, host) ≠ "" := by
    simp [entryText]
  unfold parseEntry
  simp only [strip_entryText h, hparts, String.ofList_toList, h.scheme_strip, h.scheme_lower, h.host_strip,
    h.host_lower, hne, if_false]
  constructor
  · intro hok
    split_ifs at hok with halpha hhost
    obtain ⟨hstar, hcolon, hprint⟩ := h.refusedHost_eq_false.mp (by simpa using hhost)
    exact ⟨⟨by simpa using halpha, hstar, hcolon, hprint⟩, (Except.ok.inj hok).symm⟩
  · rintro ⟨⟨hscheme, hstar, hcolon, hprint⟩, rfl⟩
    have hhost := h.refusedHost_eq_false.mpr ⟨hstar, hcolon, hprint⟩
    simp [hscheme, hhost]

/-! ## Reading the entries -/

theorem forall₂_parseEntry_entryText {authorities entries : List (String × String)}
    (h : ∀ a ∈ authorities, IsAuthority tables a.1 a.2) :
    List.Forall₂ (fun a entry => parseEntry tables (entryText a) = .ok entry) authorities entries ↔
      (∀ a ∈ authorities, Expressible tables a.1 a.2) ∧ entries = authorities := by
  induction authorities generalizing entries with
  | nil => simp
  | cons a authorities ih =>
    obtain ⟨ha, hrest⟩ := List.forall_mem_cons.mp h
    rw [List.forall₂_cons_left_iff, List.forall_mem_cons]
    simp only [parseEntry_authority ha, ih hrest]
    constructor
    · rintro ⟨_, _, ⟨hexpressible, rfl⟩, ⟨hall, rfl⟩, rfl⟩
      exact ⟨⟨hexpressible, hall⟩, rfl⟩
    · rintro ⟨⟨hexpressible, hall⟩, rfl⟩
      exact ⟨a, authorities, ⟨hexpressible, rfl⟩, ⟨hall, rfl⟩, rfl⟩

/-- Authorities written as entries are read back as they are, when each can be said. -/
theorem fromEntries_entryText {authorities : List (String × String)}
    (h : ∀ a ∈ authorities, IsAuthority tables a.1 a.2) {allowlist : EgressAllowlist} :
    EgressAllowlist.fromEntries tables (authorities.map entryText) = .ok allowlist ↔
      (∀ a ∈ authorities, Expressible tables a.1 a.2) ∧ allowlist.entries = authorities := by
  have hread : EgressAllowlist.fromEntries tables (authorities.map entryText) = .ok allowlist ↔
      (authorities.map entryText).mapM (parseEntry tables) = .ok allowlist.entries := by
    rw [EgressAllowlist.fromEntries]
    cases (authorities.map entryText).mapM (parseEntry tables) with
    | error e => exact ⟨(nomatch ·), (nomatch ·)⟩
    | ok entries => exact ⟨fun h => by cases h; rfl, fun h => by cases h; rfl⟩
  rw [hread, mapM_eq_ok_iff, List.forall₂_map_left_iff, forall₂_parseEntry_entryText h]

theorem requireStartupCoverage_eq_ok {allowlist : EgressAllowlist} {required : List (String × String)} :
    requireStartupCoverage tables allowlist required = .ok () ↔
      ∀ target ∈ required, allowlist.allows tables.toTables target.2 = true := by
  induction required with
  | nil => simp [requireStartupCoverage]
  | cons target required ih =>
    rw [requireStartupCoverage, List.forall_mem_cons, ← ih]
    split_ifs with h <;> simp [h]

/-! ## Targets -/

namespace EgressSettings

variable {settings : EgressSettings}

/-- The provider URLs and the URLs of the channels. -/
def targets (settings : EgressSettings) : List String := settings.baseUrls ++ settings.channelUrls

theorem plain_of_all {s host : String} (hs : s.toList ≠ [] ∧ s.toList.all Char.isLower = true)
    (hhost : host.toList ≠ [] ∧ host.toList.all Url.isHostChar = true) : Url.Plain s.toList host.toList where
  scheme_ne := hs.1
  scheme_lower := List.all_eq_true.mp hs.2
  host_ne := hhost.1
  host_chars := List.all_eq_true.mp hhost.2

/-- A scheme and a host in plain letters can be entryText, read and said. -/
theorem urlAuthority_entryText (tables : TextTables) (h : Url.Plain scheme.toList host.toList) :
    urlAuthority tables.toTables (entryText (scheme, host)) = some (scheme, host) ∧
      Expressible tables scheme host := by
  constructor
  · have happend : entryText (scheme, host) =
        String.ofList (scheme.toList ++ ':' :: '/' :: '/' :: (host.toList ++ [])) := by
      rw [← String.toList_inj]
      simp [entryText]
    rw [happend, urlAuthority_plain h (by simp), String.ofList_toList, String.ofList_toList]
  · have hascii : ∀ {s : String}, (∀ c ∈ s.toList, Url.isHostChar c = true) →
        (∀ c ∈ s.toList, c.toNat < 128) := fun hs c hc =>
      lt_of_le_of_lt (Url.toNat_of_isHostChar (hs c hc)).2 (by decide)
    have hscheme : ∀ c ∈ scheme.toList, Url.isHostChar c = true := fun c hc =>
      Url.isHostChar_of_isLower (h.scheme_lower c hc)
    refine ⟨?_, fun hc => ?_, fun hc => ?_, ?_⟩
    · have hne := h.scheme_ne
      rw [tables.isalpha_ascii _ (hascii hscheme), Bool.and_eq_true, bne_iff_ne, List.all_eq_true]
      exact ⟨hne, fun c hc => Url.isAlpha_of_isLower (h.scheme_lower c hc)⟩
    · exact absurd (h.host_chars _ hc) (by decide)
    · exact absurd (h.host_chars _ hc) (by decide)
    · rw [tables.isprintable_ascii _ (hascii h.host_chars), List.all_eq_true]
      intro c hc
      have := Url.toNat_of_isHostChar (h.host_chars c hc)
      rw [Bool.and_eq_true, decide_eq_true_iff, decide_eq_true_iff]
      omega

/-- A base URL that is blank has no authority and no entry. -/
theorem derivedEntry_eq (baseUrl : Option String) : derivedEntry tables baseUrl =
    ((baseUrl.filter (· ≠ "")).bind (urlAuthority tables.toTables)).map entryText := by
  have hblank : ∀ url, strip url = "" → urlAuthority tables.toTables url = none := by
    intro url hurl
    have hlower : tables.lower "" = "" := tables.lower_ascii "" (by simp)
    have hsplit : Url.urlsplit tables.toTables "" = some ⟨"", ""⟩ := by simp [Url.urlsplit, Url.splitScheme, Url.netlocOf]
    rw [urlAuthority, hurl, hsplit]
    simp [show strip "" = "" from rfl, hlower]
  cases baseUrl with
  | none => rfl
  | some url =>
    by_cases hurl : strip url = ""
    · have hnone := hblank url hurl
      by_cases hempty : url = ""
      · simp [derivedEntry, Option.filter, hempty, show strip "" = "" from rfl]
      · simp [derivedEntry, hurl, Option.filter, hempty, hnone]
    · have hne : url ≠ "" := by
        rintro rfl
        exact hurl rfl
      simp [derivedEntry, hurl, Option.filter, hne]

theorem channelUrls_plain (h : url ∈ settings.channelUrls) :
    ∃ host : String, url = entryText ("https", host) ∧ Url.Plain "https".toList host.toList := by
  have hhosts : url = defaultTelegramApiUrl ∨ url = defaultWhatsappApiUrl ∨ url = defaultWhatsappMediaUrl := by
    simp only [channelUrls, List.mem_append] at h
    grind
  obtain rfl | rfl | rfl := hhosts
  · exact ⟨"api.telegram.org", rfl, plain_of_all (by decide) (by decide)⟩
  · exact ⟨"graph.facebook.com", rfl, plain_of_all (by decide) (by decide)⟩
  · exact ⟨"lookaside.fbsbx.com", rfl, plain_of_all (by decide) (by decide)⟩

/-- The derived entries are the authorities of the targets, written out. -/
theorem derivedEgress_eq (settings : EgressSettings) : settings.derivedEgress tables =
    (settings.targets.filterMap (urlAuthority tables.toTables)).map entryText := by
  have hbase : [settings.llmBaseUrl, settings.transcriptionBaseUrl, settings.ttsBaseUrl].filterMap
      (derivedEntry tables) = (settings.baseUrls.filterMap (urlAuthority tables.toTables)).map entryText := by
    rw [baseUrls, List.filterMap_filterMap, List.map_filterMap]
    exact List.filterMap_congr fun baseUrl _ => derivedEntry_eq baseUrl
  have hchannels : (settings.channelUrls.filterMap (urlAuthority tables.toTables)).map entryText =
      settings.channelUrls := by
    rw [List.map_filterMap]
    conv_rhs => rw [← List.filterMap_some (l := settings.channelUrls)]
    refine List.filterMap_congr fun url hurl => ?_
    obtain ⟨host, rfl, hplain⟩ := channelUrls_plain hurl
    rw [(urlAuthority_entryText tables hplain).1]
    rfl
  rw [targets, List.filterMap_append, List.map_append, ← hbase, hchannels, derivedEgress, deriveEgressEntries,
    channelUrls, List.append_assoc]

theorem mem_targets_of_mem_requiredEgress {target : String × String} (h : target ∈ settings.requiredEgress) :
    target.2 ∈ settings.targets := by
  have hprovider : ∀ label provider baseUrl, target ∈ providerTarget label provider baseUrl →
      baseUrl.filter (· ≠ "") = some target.2 := by
    intro label provider baseUrl hmem
    unfold providerTarget at hmem
    split_ifs at hmem
    · obtain ⟨url, hurl, rfl⟩ := List.mem_map.mp hmem
      exact Option.mem_toList.mp hurl
    · cases hmem
  have hchannel : ∀ {flag : Bool} {label url : String} {urls : List String}, url ∈ urls →
      target ∈ (if flag then [(label, url)] else []) → target.2 ∈ if flag then urls else [] := by
    intro flag label url urls hurl hmem
    cases flag with
    | false => cases hmem
    | true => exact List.mem_singleton.mp hmem ▸ hurl
  simp only [targets, baseUrls, channelUrls, List.mem_append, List.mem_filterMap]
  simp only [requiredEgress, List.mem_append] at h
  obtain (((h | h) | h) | h) | h := h
  · exact .inl ⟨settings.llmBaseUrl, by simp, hprovider _ _ _ h⟩
  · exact .inl ⟨settings.transcriptionBaseUrl, by simp, hprovider _ _ _ h⟩
  · exact .inl ⟨settings.ttsBaseUrl, by simp, hprovider _ _ _ h⟩
  · exact .inr (.inl (hchannel (by simp) h))
  · exact .inr (.inr (hchannel (by simp) h))

/-! ## Coverage -/

/-- The allowlist allows the targets, and nothing but what has the scheme and host of one of them. -/
structure Covers (tables : TextTables) (allowlist : EgressAllowlist) (targets : List String) : Prop where
  allows : ∀ url ∈ targets, allowlist.allows tables.toTables url = true
  only : ∀ url, allowlist.allows tables.toTables url = true →
    ∃ target ∈ targets, urlAuthority tables.toTables url = urlAuthority tables.toTables target

/-- Without explicit entries the settings are accepted when the derived entries are read. -/
theorem validateEgress_eq_ok {allowlist : EgressAllowlist}
    (hexplicit : ∀ entry ∈ settings.egressAllowedHosts, strip entry = "")
    (hread : EgressAllowlist.fromEntries tables (settings.derivedEgress tables) = .ok allowlist)
    (hcovers : Covers tables allowlist settings.targets) :
    settings.validateEgress tables = .ok (settings.derivedEgress tables) := by
  have hnone : settings.egressAllowedHosts.filter (fun entry => strip entry ≠ "") = [] := by
    simpa [List.filter_eq_nil_iff] using hexplicit
  have hcovered := requireStartupCoverage_eq_ok.mpr fun target h =>
    hcovers.allows _ (@mem_targets_of_mem_requiredEgress settings _ h)
  rw [validateEgress, hnone, List.map_nil, if_pos rfl]
  rw [hread]
  exact except_bind_eq_ok.mpr ⟨allowlist, rfl, except_bind_eq_ok.mpr ⟨(), hcovered, rfl⟩⟩

theorem covers_authorities (hvalid : ∀ url ∈ settings.baseUrls, urlAuthority tables.toTables url ≠ none) :
    Covers tables ⟨settings.targets.filterMap (urlAuthority tables.toTables)⟩ settings.targets where
  allows url hurl := by
    have hsome : ∃ authority, urlAuthority tables.toTables url = some authority := by
      obtain hbase | hchannel := List.mem_append.mp hurl
      · exact Option.ne_none_iff_exists'.mp (hvalid url hbase)
      · obtain ⟨host, rfl, hplain⟩ := channelUrls_plain hchannel
        exact ⟨_, (urlAuthority_entryText tables hplain).1⟩
    obtain ⟨authority, hauthority⟩ := hsome
    exact EgressAllowlist.allows_iff.mpr ⟨authority, List.mem_filterMap.mpr ⟨url, hurl, hauthority⟩, hauthority⟩
  only url hallows := by
    obtain ⟨authority, hmem, hauthority⟩ := EgressAllowlist.allows_iff.mp hallows
    obtain ⟨target, htarget, hsame⟩ := List.mem_filterMap.mp hmem
    exact ⟨target, htarget, hauthority.trans hsame.symm⟩

/-- Without explicit entries the derived ones are read, cover exactly the targets and pass the validation just
when the authority of every provider URL can be written as an entry. -/
theorem derivedEgress_covers_iff
    (hexplicit : ∀ entry ∈ settings.egressAllowedHosts, strip entry = "")
    (hvalid : ∀ url ∈ settings.baseUrls, urlAuthority tables.toTables url ≠ none) :
    ((∃ allowlist, EgressAllowlist.fromEntries tables (settings.derivedEgress tables) = .ok allowlist ∧
        Covers tables allowlist settings.targets) ∧
      ∃ effective, settings.validateEgress tables = .ok effective) ↔
    ∀ url ∈ settings.baseUrls, ∀ scheme host, urlAuthority tables.toTables url = some (scheme, host) →
      Expressible tables scheme host := by
  have hauthorities : ∀ a ∈ settings.targets.filterMap (urlAuthority tables.toTables),
      IsAuthority tables a.1 a.2 := by
    intro a ha
    obtain ⟨url, -, hurl⟩ := List.mem_filterMap.mp ha
    exact isAuthority_of_urlAuthority hurl
  constructor
  · rintro ⟨⟨allowlist, hread, -⟩, -⟩ url hurl scheme host hauthority
    rw [derivedEgress_eq, fromEntries_entryText hauthorities] at hread
    exact hread.1 (scheme, host) (List.mem_filterMap.mpr ⟨url, List.mem_append_left _ hurl, hauthority⟩)
  · intro hexpressible
    have hall : ∀ a ∈ settings.targets.filterMap (urlAuthority tables.toTables), Expressible tables a.1 a.2 := by
      intro a ha
      obtain ⟨url, hurl, hauthority⟩ := List.mem_filterMap.mp ha
      obtain hurl | hurl := List.mem_append.mp hurl
      · exact hexpressible url hurl a.1 a.2 hauthority
      · obtain ⟨host, rfl, hplain⟩ := channelUrls_plain hurl
        obtain ⟨hsame, hsaid⟩ := urlAuthority_entryText tables hplain
        rw [hsame, Option.some.injEq] at hauthority
        exact hauthority ▸ hsaid
    have hread : EgressAllowlist.fromEntries tables (settings.derivedEgress tables) =
        .ok ⟨settings.targets.filterMap (urlAuthority tables.toTables)⟩ := by
      rw [derivedEgress_eq, fromEntries_entryText hauthorities]
      exact ⟨hall, rfl⟩
    have hcovers := covers_authorities hvalid
    exact ⟨⟨_, hread, hcovers⟩, _, validateEgress_eq_ok hexplicit hread hcovers⟩

/-! ### An address in brackets -/

section Samples

theorem toLower_cases (c : Char) : c.toLower = c ∨ c.isUpper = true ∧ c.toLower.isLower = true := by
  by_cases h : c.val ≥ 'A'.val ∧ c.val ≤ 'Z'.val
  · have hall : ∀ n < 91, (Char.ofNat n).isUpper = true → (Char.ofNat n).toLower.isLower = true := by decide
    have hupper : c.isUpper = true := by
      delta Char.isUpper
      simpa using h
    have hlt : c.toNat < 91 := Nat.lt_succ_of_le h.2
    have hc := hall c.toNat hlt
    rw [Char.ofNat_toNat] at hc
    exact .inr ⟨hupper, hc hupper⟩
  · exact .inl (by delta Char.toLower; rw [dif_neg h])

theorem toLower_toLower (c : Char) : c.toLower.toLower = c.toLower := by
  obtain hsame | ⟨-, hlower⟩ := toLower_cases c
  · rw [hsame, hsame]
  · exact Url.toLower_of_isHostChar (Url.isHostChar_of_isLower hlower)

theorem isSpace_toLower {c : Char} (h : isSpace c = false) : isSpace c.toLower = false := by
  obtain hsame | ⟨-, hlower⟩ := toLower_cases c
  · rwa [hsame]
  · exact isSpace_of_isHostChar (Url.isHostChar_of_isLower hlower)

def asciiLower (s : String) : String := String.ofList (s.toList.map Char.toLower)

/-- Tables of a host that knows the ASCII letters only. -/
def asciiTables : TextTables where
  lower := asciiLower
  refused _ := false
  isalpha s := s.toList != [] && s.toList.all Char.isAlpha
  isprintable s := s.toList.all fun c => 0x20 ≤ c.toNat && c.toNat < 0x7F
  repr s := "'" ++ s ++ "'"
  lower_ascii _ _ := rfl
  isalpha_ascii _ _ := rfl
  isprintable_ascii _ _ := rfl
  lower_lower s := by
    simp only [asciiLower, String.toList_ofList, List.map_map, Function.comp_def, toLower_toLower]
  strip_lower s h := by
    have hstrip : stripList isSpace s.toList = s.toList := by
      rw [← toList_stripBy]
      exact congrArg String.toList h
    rw [strip, ← String.toList_inj, toList_stripBy, asciiLower, String.toList_ofList]
    refine stripList_eq_self (fun c hc => ?_) fun c hc => ?_
    · obtain ⟨d, hd, rfl⟩ := Option.map_eq_some_iff.mp (List.head?_map.symm.trans hc)
      exact isSpace_toLower (head?_stripList s.toList d (by rwa [hstrip]))
    · obtain ⟨d, hd, rfl⟩ := Option.map_eq_some_iff.mp (List.getLast?_map.symm.trans hc)
      exact isSpace_toLower (getLast?_stripList s.toList d (by rwa [hstrip]))
  mem_lower s c hc h := by
    rw [asciiLower, String.toList_ofList] at h
    obtain ⟨d, hd, rfl⟩ := List.mem_map.mp h
    obtain hsame | ⟨-, hlower⟩ := toLower_cases d
    · rwa [hsame]
    · have hnot : [':', '/', '@'].all (fun e => !e.isLower) = true := by decide
      have hfalse := List.all_eq_true.mp hnot _ hc
      rw [hlower] at hfalse
      cases hfalse

/-- A provider on the local machine, by its IPv6 address. -/
def localSettings : EgressSettings where
  llmProvider := "minimax"
  llmBaseUrl := some "http://[::1]:11434/v1"
  transcriptionProvider := "disabled"
  transcriptionBaseUrl := none
  ttsProvider := "disabled"
  ttsBaseUrl := none
  telegramBotToken := none
  whatsappAccessToken := none
  egressAllowedHosts := []

/-- The URL has an authority, and the entry derived from it is refused. -/
theorem address_refused :
    localSettings.baseUrls = ["http://[::1]:11434/v1"] ∧
      urlAuthority asciiTables.toTables "http://[::1]:11434/v1" = some ("http", "::1") ∧
      EgressAllowlist.fromEntries asciiTables (localSettings.derivedEgress asciiTables) =
        .error (.valueError "invalid egress allowlist entry host: 'http://::1'") ∧
      localSettings.validateEgress asciiTables =
        .error (.valueError "invalid egress allowlist entry host: 'http://::1'") := by
  refine ⟨by decide +kernel, by decide +kernel, by rfl, by rfl⟩

/-- A provider on the network is covered, with its channel, and the settings pass. -/
theorem provider_covered :
    let settings := { localSettings with
      llmBaseUrl := some "https://api.example.com/v1"
      telegramBotToken := some "token" }
    (∃ allowlist, EgressAllowlist.fromEntries asciiTables (settings.derivedEgress asciiTables) = .ok allowlist ∧
        Covers asciiTables allowlist ["https://api.example.com/v1", "https://api.telegram.org"]) ∧
      ∃ effective, settings.validateEgress asciiTables = .ok effective := by
  refine (@derivedEgress_covers_iff asciiTables { localSettings with
      llmBaseUrl := some "https://api.example.com/v1"
      telegramBotToken := some "token" } (by simp [localSettings]) ?_).mpr ?_
  all_goals
    intro url hurl
    have hsame : "https://api.example.com/v1" = url ∧ url ≠ "" := by simpa [baseUrls, localSettings] using hurl
    obtain rfl := hsame.1
    have hauthority : urlAuthority asciiTables.toTables "https://api.example.com/v1" =
        some ("https", "api.example.com") := by decide +kernel
    rw [hauthority]
  · simp
  · rintro _ _ ⟨⟩
    exact ⟨by decide, by decide, by decide, by decide⟩

end Samples

end EgressSettings

end PersonalAssistant

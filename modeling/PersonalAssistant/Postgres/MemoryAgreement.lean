import PersonalAssistant.Lib.Lists
import PersonalAssistant.Lib.Runs
import PersonalAssistant.Postgres.Memory

/-!
# What both memory stores retrieve

Both stores are fed the same additions. The map holds the records created, in order, and the table the
storable ones of them. Reading filters and cuts both, so where the server answers, the answers are equal
exactly when the two searches select alike until the limit is reached. One compares folded texts, the other a
folded query with lower-cased texts.
-/
namespace PersonalAssistant

open Lib

variable {platform : Platform} {lowerChar : Char → Char}

namespace MemoryKind

theorem value_injective : Function.Injective value := by
  intro a b h
  cases a <;> cases b <;> first | rfl | exact absurd h (by decide)

end MemoryKind

/-! ## Additions -/

/-- A call of `add`, with the identifier and the clock reading it finds. -/
structure MemoryAdd where
  principal : Principal
  kind : MemoryKind
  text : String
  source : String
  confirmed : Bool
  fresh : Uuid
  now : Instant

namespace MemoryAdd

variable {call : MemoryAdd}

def run (call : MemoryAdd) : TenantMemoryStore.Method MemoryRecord :=
  TenantMemoryStore.add call.principal call.kind call.text call.source call.confirmed call.fresh call.now

def runPostgres (platform : Platform) (call : MemoryAdd) : PostgresMemoryStore.Method MemoryRecord :=
  PostgresMemoryStore.add platform call.principal call.kind call.text call.source call.confirmed call.fresh
    call.now

/-- The record of the call's texts. -/
def record (call : MemoryAdd) : MemoryRecord where
  id := "mem_" ++ call.fresh.hex
  tenantId := call.principal.tenantId
  userId := some call.principal.principalId
  kind := call.kind
  text := trim call.text
  source := trim call.source
  confirmed := call.confirmed
  createdAt := call.now

/-- The call creates a record. -/
def Creates (call : MemoryAdd) : Prop :=
  call.principal.trusted = true ∧ trim call.text ≠ "" ∧ trim call.source ≠ ""

instance : DecidablePred Creates := fun _ => inferInstanceAs (Decidable (_ ∧ _))

theorem create_eq_ok (h : call.Creates) :
    MemoryRecord.create call.principal call.kind call.text call.source call.confirmed call.fresh call.now =
      .ok call.record := by
  unfold MemoryRecord.create
  rw [OutboxMessage.requireNonempty_eq_ok.mpr h.2.1, OutboxMessage.requireNonempty_eq_ok.mpr h.2.2]
  rfl

theorem create_eq_error (htrusted : call.principal.trusted = true) (h : ¬ call.Creates) : ∃ e,
    MemoryRecord.create call.principal call.kind call.text call.source call.confirmed call.fresh call.now =
      .error e := by
  unfold MemoryRecord.create requireNonempty
  by_cases htext : trim call.text = ""
  · exact ⟨_, by rw [if_pos htext]; rfl⟩
  · have hsource : trim call.source = "" := by
      by_contra hne
      exact h ⟨htrusted, htext, hne⟩
    exact ⟨_, by rw [if_neg htext, if_pos hsource]; rfl⟩

/-- A created record validates unchanged. -/
theorem record_modelValidate (h : call.Creates) : call.record.modelValidate = .ok call.record := by
  have hid : trim ("mem_" ++ call.fresh.hex) = "mem_" ++ call.fresh.hex :=
    trimmed_append_of_not_isSpace (forall_not_isSpace (by decide)) call.fresh.not_isSpace
  have htenant : trim call.principal.tenantId = call.principal.tenantId := call.principal.tenant.trimmed
  have huser : trim call.principal.principalId = call.principal.principalId :=
    call.principal.principal.trimmed
  have htext : trim (trim call.text) = trim call.text := trimmed_trim _
  have hsource : trim (trim call.source) = trim call.source := trimmed_trim _
  unfold MemoryRecord.modelValidate
  simp only [record, hid, htenant, Option.map_some, huser, htext, hsource,
    OutboxMessage.requireNonempty_eq_ok.mpr h.2.1, OutboxMessage.requireNonempty_eq_ok.mpr h.2.2]
  rfl

theorem run_snd (s : TenantMemoryStore) :
    (call.run s).2 =
      if call.Creates then { records := s.records.set call.record.id call.record } else s := by
  unfold run TenantMemoryStore.add
  split_ifs with h
  · rw [requireTrustedPrincipal_of_trusted h.1, create_eq_ok h]
    rfl
  · by_cases htrusted : call.principal.trusted = true
    · obtain ⟨e, he⟩ := create_eq_error htrusted h
      rw [requireTrustedPrincipal_of_trusted htrusted, he]
      rfl
    · simp [requireTrustedPrincipal, htrusted]

end MemoryAdd

namespace MemoryRecord

/-- The texts of a record that come from the caller. -/
def storable (record : MemoryRecord) : Bool :=
  PersonalAssistant.storable record.tenantId && record.userId.all PersonalAssistant.storable &&
    PersonalAssistant.storable record.text && PersonalAssistant.storable record.source

end MemoryRecord

theorem Instant.storable_json (t : Instant) : storable t.json = true := by
  simp only [storable, Instant.json, String.toList_ofList, List.all_eq_true]
  intro c hc
  have hmarks : ['-', ':', '.'].all (fun c => decide (c ≠ '\x00')) = true := by decide
  have hzone : ['Z'].all (fun c => decide (c ≠ '\x00')) = true := by decide
  exact @Civil.forall_mem_stamp (fun c => decide (c ≠ '\x00') = true) 'T' ['Z'] (by decide)
    (List.all_eq_true.mp hmarks) (by decide) (List.all_eq_true.mp hzone) _ _ hc

namespace MemoryAdd

variable {call : MemoryAdd}

theorem storable_id (call : MemoryAdd) : storable call.record.id = true := by
  rw [record, storable_append, call.fresh.storable_hex]
  decide

theorem storable_value (kind : MemoryKind) : storable kind.value = true := by
  cases kind <;> decide

/-- The texts bound by an `INSERT`. -/
theorem all_storable_record :
    ([call.record.tenantId, call.record.id, call.record.kind.value, call.record.text, call.record.source] ++
      call.record.userId.toList).all storable = call.record.storable := by
  have hid := storable_id call
  have hkind := storable_value call.record.kind
  have huser : call.record.userId = some call.principal.principalId := rfl
  simp only [MemoryRecord.storable, huser, List.all_append, List.all_cons, List.all_nil, Option.toList_some,
    Option.all_some, hid, hkind, Bool.and_true, Bool.true_and]
  ac_rfl

theorem storableJson_record (h : call.record.storable = true) : storableJson call.record.json = true := by
  have hid := storable_id call
  have hkind := storable_value call.record.kind
  have huser : call.record.userId = some call.principal.principalId := rfl
  simp only [MemoryRecord.storable, huser, Option.all_some, Bool.and_eq_true] at h
  obtain ⟨⟨⟨htenant, hprincipal⟩, htext⟩, hsource⟩ := h
  have hkeys : ["confirmed", "created_at", "id", "kind", "source", "tenant_id", "text", "user_id"].all
      PersonalAssistant.storable = true := by decide
  simp only [List.all_cons, Bool.and_eq_true] at hkeys
  simp [MemoryRecord.json, storableJson, storableMembers, huser, hid, hkind, htenant, hprincipal, htext,
    hsource, Instant.storable_json, hkeys]

/-- An addition to a table that does not have its key. -/
theorem runPostgres_snd (t : MemoryTable)
    (hnew : call.Creates →
      t.find? (PostgresMemoryStore.isRecord call.principal.tenantId call.record.id) = none) :
    (call.runPostgres platform t).2 =
      if call.Creates ∧ call.record.storable = true
      then t ++ [PostgresMemoryStore.insertedRow platform call.record] else t := by
  unfold runPostgres PostgresMemoryStore.add
  by_cases hcreates : call.Creates
  · rw [create_eq_ok hcreates, Op.ofExcept_ok_bind]
    unfold PostgresMemoryStore.save
    have htenant : decide (call.record.tenantId = call.principal.tenantId) = true := decide_eq_true rfl
    have huser : (call.record.userId.all fun user => user = call.principal.principalId) = true :=
      decide_eq_true rfl
    have hown : some (call.record.userId.getD call.principal.principalId) = call.record.userId := rfl
    have hbind : PostgresOutbox.bindTexts ([call.record.tenantId, call.record.id, call.record.kind.value,
        call.record.text, call.record.source] ++ call.record.userId.toList) =
        InMemoryOutbox.require call.record.storable (.external "DataError") := by
      rw [PostgresOutbox.bindTexts, all_storable_record]
    simp only [requireTrustedPrincipal_of_trusted hcreates.1, Op.ofExcept_ok_bind, htenant, huser,
      InMemoryOutbox.require_true, hown, PostgresMemoryStore.insertedRow, hbind]
    cases hstorable : call.record.storable with
    | false => simp
    | true =>
      have hvalid := record_modelValidate hcreates
      simp [storableJson_record hstorable, hnew hcreates, hvalid, hcreates]
  · rw [if_neg fun h => hcreates h.1]
    by_cases htrusted : call.principal.trusted = true
    · obtain ⟨e, he⟩ := create_eq_error htrusted hcreates
      rw [he]
      rfl
    · cases MemoryRecord.create call.principal call.kind call.text call.source call.confirmed call.fresh
        call.now with
      | error e => rfl
      | ok made => simp [PostgresMemoryStore.save, requireTrustedPrincipal, htrusted]

end MemoryAdd

/-! ## Histories -/

/-- The records a history creates, oldest first. -/
def created (history : List MemoryAdd) : List MemoryRecord :=
  (history.filter MemoryAdd.Creates).map MemoryAdd.record

def memoryAfter (history : List MemoryAdd) : TenantMemoryStore := after MemoryAdd.run .empty history

def tableAfter (platform : Platform) (history : List MemoryAdd) : MemoryTable :=
  after (MemoryAdd.runPostgres platform) [] history

theorem created_concat (history : List MemoryAdd) (call : MemoryAdd) :
    created (history ++ [call]) = created history ++ if call.Creates then [call.record] else [] := by
  unfold created
  rw [List.filter_append, List.map_append]
  by_cases h : call.Creates <;> simp [h]

theorem exists_of_mem_created {history : List MemoryAdd} {record : MemoryRecord} (h : record ∈ created history) :
    ∃ call : MemoryAdd, call.Creates ∧ record = call.record := by
  obtain ⟨call, hcall, rfl⟩ := List.mem_map.mp h
  exact ⟨call, by simpa using (List.mem_filter.mp hcall).2, rfl⟩

section Histories

variable {history : List MemoryAdd}

/-- Identifiers that differ in a history differ before its last call, and from the one it generates. -/
theorem nodup_created_concat {call : MemoryAdd}
    (h : ((created (history ++ [call])).map MemoryRecord.id).Nodup) :
    ((created history).map MemoryRecord.id).Nodup ∧
      (call.Creates → call.record.id ∉ (created history).map MemoryRecord.id) := by
  rw [created_concat, List.map_append, List.nodup_append'] at h
  refine ⟨h.1, fun hcreates hmem => ?_⟩
  rw [if_pos hcreates] at h
  exact h.2.2 hmem (by simp)

/-- The map holds the records created, in order. -/
theorem entries_memoryAfter (hids : ((created history).map MemoryRecord.id).Nodup) :
    (memoryAfter history).records.entries = (created history).map fun record => (record.id, record) := by
  induction history using List.reverseRecOn with
  | nil => rfl
  | append_singleton history call ih =>
    obtain ⟨hbefore, hnew⟩ := nodup_created_concat hids
    have ih := ih hbefore
    have hstep : memoryAfter (history ++ [call]) = (call.run (memoryAfter history)).2 := after_append _ _ _
    rw [hstep, MemoryAdd.run_snd, created_concat]
    by_cases hcreates : call.Creates
    · have hnone : (memoryAfter history).records.get? call.record.id = none := by
        rw [Dict.get?_eq_none_iff, ih, List.map_map]
        exact hnew hcreates
      rw [if_pos hcreates, if_pos hcreates, Dict.entries_set_of_get?_eq_none _ hnone, ih, List.map_append]
      rfl
    · rw [if_neg hcreates, if_neg hcreates, ih, List.append_nil]

/-- The table holds the rows of the storable records created, in order. -/
theorem tableAfter_eq (hids : ((created history).map MemoryRecord.id).Nodup) :
    tableAfter platform history =
      ((created history).filter MemoryRecord.storable).map (PostgresMemoryStore.insertedRow platform) := by
  induction history using List.reverseRecOn with
  | nil => rfl
  | append_singleton history call ih =>
    obtain ⟨hbefore, hnew⟩ := nodup_created_concat hids
    have ih := ih hbefore
    have hstep : tableAfter platform (history ++ [call]) =
        (call.runPostgres platform (tableAfter platform history)).2 := after_append _ _ _
    have hfind : call.Creates → (tableAfter platform history).find?
        (PostgresMemoryStore.isRecord call.principal.tenantId call.record.id) = none := by
      intro hcreates
      rw [ih, List.find?_eq_none]
      intro row hrow hsame
      obtain ⟨record, hrecord, rfl⟩ := List.mem_map.mp hrow
      simp only [PostgresMemoryStore.isRecord, Bool.and_eq_true, decide_eq_true_eq] at hsame
      exact hnew hcreates (List.mem_map.mpr ⟨record, (List.mem_filter.mp hrecord).1, hsame.2⟩)
    rw [hstep, MemoryAdd.runPostgres_snd _ hfind, created_concat, List.filter_append, List.map_append, ← ih]
    by_cases hcreates : call.Creates
    · cases hstorable : call.record.storable <;> simp [hcreates, hstorable]
    · simp [hcreates]

end Histories

/-! ## Reading -/

/-- The filters of a call other than its query. -/
def isCandidate (principal : Principal) (kind : Option MemoryKind) (confirmedOnly : Bool)
    (record : MemoryRecord) : Bool :=
  TenantMemoryStore.isOwn principal record && kind.all (fun k => record.kind = k) &&
    (!confirmedOnly || record.confirmed)

/-- The folded query is empty or occurs in the folded text. -/
def foldedMatch (platform : Platform) (query text : String) : Bool :=
  platform.casefold query = "" || (platform.casefold query).toList <:+: (platform.casefold text).toList

/-- The folded query is empty or occurs, lower-cased, in the lower-cased text. -/
def loweredMatch (platform : Platform) (lowerChar : Char → Char) (query text : String) : Bool :=
  platform.casefold query = "" ||
    PostgresMemoryStore.contains (sqlLower lowerChar (platform.casefold query)) (sqlLower lowerChar text)

section Reading

variable {principal : Principal} {query : String} {kind : Option MemoryKind} {confirmedOnly : Bool}
  {limit : Int} {history : List MemoryAdd} {binding : ParameterBinding}

theorem isMatch_eq (record : MemoryRecord) :
    TenantMemoryStore.isMatch platform principal query kind confirmedOnly record =
      (isCandidate principal kind confirmedOnly record && foldedMatch platform query record.text) := rfl

/-- The `WHERE` on the row of a record. -/
theorem selected_insertedRow (record : MemoryRecord) :
    PostgresMemoryStore.selected lowerChar principal (platform.casefold query) kind confirmedOnly
      (PostgresMemoryStore.insertedRow platform record) =
      (isCandidate principal kind confirmedOnly record &&
        loweredMatch platform lowerChar query record.text) := by
  have hkind : ∀ k : MemoryKind, decide (record.kind.value = k.value) = decide (record.kind = k) := fun k =>
    decide_eq_decide.mpr MemoryKind.value_injective.eq_iff
  unfold PostgresMemoryStore.selected PostgresMemoryStore.insertedRow
  simp only [hkind]
  rfl

/-- The records whose rows are selected. -/
def isSelected (platform : Platform) (lowerChar : Char → Char) (principal : Principal) (query : String)
    (kind : Option MemoryKind) (confirmedOnly : Bool) (record : MemoryRecord) : Bool :=
  record.storable && (isCandidate principal kind confirmedOnly record &&
    loweredMatch platform lowerChar query record.text)

theorem retrieve_memoryAfter (htrusted : principal.trusted = true) (hlimit : 0 ≤ limit)
    (hids : ((created history).map MemoryRecord.id).Nodup) :
    (TenantMemoryStore.retrieve platform principal query kind confirmedOnly limit (memoryAfter history)).1 =
      .ok (((created history).filter
        (TenantMemoryStore.isMatch platform principal query kind confirmedOnly)).take limit.toNat) := by
  have hvalues : (memoryAfter history).records.values = created history := by
    rw [Dict.values, entries_memoryAfter hids, List.map_map]
    exact List.map_id _
  unfold TenantMemoryStore.retrieve
  rw [requireTrustedPrincipal_of_trusted htrusted]
  simp [hvalues, TenantMemoryStore.slice, hlimit]

/-- The values of a `SELECT` are typed and in range. -/
def Readable (binding : ParameterBinding) (platform : Platform) (principal : Principal) (query : String)
    (limit : Int) : Prop :=
  binding = .client ∧ storable principal.tenantId = true ∧ storable principal.principalId = true ∧
    storable (platform.casefold query) = true ∧ limit ≤ maxBigint

theorem retrieve_tableAfter (htrusted : principal.trusted = true) (hlimit : 0 ≤ limit)
    (hread : Readable binding platform principal query limit)
    (hids : ((created history).map MemoryRecord.id).Nodup)
    (htimes : (created history).Pairwise fun a b => a.createdAt < b.createdAt) :
    (PostgresMemoryStore.retrieve binding platform lowerChar principal query kind confirmedOnly limit
      (tableAfter platform history)).1 =
      .ok (((created history).filter
        (isSelected platform lowerChar principal query kind confirmedOnly)).take limit.toNat) := by
  obtain ⟨rfl, htenant, huser, hquery, hmax⟩ := hread
  have hrows : (tableAfter platform history).filter
      (PostgresMemoryStore.selected lowerChar principal (platform.casefold query) kind confirmedOnly) =
      ((created history).filter (isSelected platform lowerChar principal query kind confirmedOnly)).map
        (PostgresMemoryStore.insertedRow platform) := by
    rw [tableAfter_eq hids, List.filter_map, List.filter_filter]
    congr 1
    refine List.filter_congr fun record _ => ?_
    rw [Function.comp_apply, selected_insertedRow, isSelected, Bool.and_comm]
  -- the rows are in the order of their creation already
  have hsorted : (((created history).filter (isSelected platform lowerChar principal query kind
      confirmedOnly)).map (PostgresMemoryStore.insertedRow platform)).Pairwise
      PostgresMemoryStore.orderedBefore := by
    rw [List.pairwise_map]
    exact (htimes.sublist (List.filter_sublist)).imp fun h => .inl h
  have hpayloads : ∀ record ∈ ((created history).filter (isSelected platform lowerChar principal query kind
      confirmedOnly)).take limit.toNat, record.modelValidate = .ok record := by
    intro record hrecord
    obtain ⟨call, hcreates, rfl⟩ :=
      exists_of_mem_created (List.mem_of_mem_filter (List.mem_of_mem_take hrecord))
    exact MemoryAdd.record_modelValidate hcreates
  unfold PostgresMemoryStore.retrieve
  simp only [requireTrustedPrincipal_of_trusted htrusted, Op.ofExcept_ok_bind, PostgresOutbox.bindTexts,
    List.all_cons, List.all_nil, htenant, huser, hquery, Bool.and_true, InMemoryOutbox.require_true, hlimit,
    hmax, decide_true, Op.get_bind, hrows, hsorted.insertionSort_eq, Op.ofExcept_apply, ← List.map_take,
    List.mapM_map]
  exact (mapM_eq_ok hpayloads).trans (by rw [List.map_id'])

theorem retrieve_of_not_readable (htrusted : principal.trusted = true)
    (hread : ¬ Readable binding platform principal query limit) (t : MemoryTable) :
    ∃ name, (PostgresMemoryStore.retrieve binding platform lowerChar principal query kind confirmedOnly limit
      t).1 = .error (.external name) := by
  unfold PostgresMemoryStore.retrieve
  rw [requireTrustedPrincipal_of_trusted htrusted, Op.ofExcept_ok_bind]
  cases hbind : PostgresOutbox.bindTexts [principal.tenantId, principal.principalId, platform.casefold query] with
  | error e =>
    obtain ⟨-, rfl⟩ := InMemoryOutbox.require_eq_error.mp hbind
    exact ⟨_, rfl⟩
  | ok =>
    cases binding with
    | server => exact ⟨_, rfl⟩
    | client =>
      have hmax : ¬ limit ≤ maxBigint := by
        intro hmax
        have htexts := InMemoryOutbox.require_eq_ok.mp hbind
        simp only [List.all_cons, List.all_nil, Bool.and_true, Bool.and_eq_true] at htexts
        exact hread ⟨rfl, htexts.1, htexts.2.1, htexts.2.2, hmax⟩
      by_cases hlimit : 0 ≤ limit <;> simp [hlimit, hmax]

/-- Both stores answer alike when the `SELECT` can be run and its selection is that of the loop. -/
theorem sameAnswer_iff (hlimit : 0 ≤ limit) (hids : ((created history).map MemoryRecord.id).Nodup)
    (htimes : (created history).Pairwise fun a b => a.createdAt < b.createdAt) :
    SameAnswer Eq False
        (TenantMemoryStore.retrieve platform principal query kind confirmedOnly limit (memoryAfter history)).1
        (PostgresMemoryStore.retrieve binding platform lowerChar principal query kind confirmedOnly limit
          (tableAfter platform history)).1 ↔
      (principal.trusted = true → Readable binding platform principal query limit ∧
        ((created history).filter (TenantMemoryStore.isMatch platform principal query kind confirmedOnly)).take
            limit.toNat =
          ((created history).filter (isSelected platform lowerChar principal query kind confirmedOnly)).take
            limit.toNat) := by
  by_cases htrusted : principal.trusted = true
  · rw [retrieve_memoryAfter htrusted hlimit hids]
    by_cases hread : Readable binding platform principal query limit
    · rw [retrieve_tableAfter htrusted hlimit hread hids htimes]
      constructor
      · rintro (h | _ | h) -
        · exact ⟨hread, h⟩
      · exact fun h => .returned (h htrusted).2
    · have hraised : ∃ name, (PostgresMemoryStore.retrieve binding platform lowerChar principal query kind
          confirmedOnly limit (tableAfter platform history)).1 = .error (.external name) :=
        retrieve_of_not_readable htrusted hread _
      obtain ⟨name, herror⟩ := hraised
      rw [herror]
      exact ⟨fun h => absurd rfl h.code, fun h => absurd (h htrusted).1 hread⟩
  · have herror : requireTrustedPrincipal principal = .error (.assistant .authenticationRequired
        "principal must be derived from verified auth" (some principal.tenantId)) := if_neg htrusted
    unfold TenantMemoryStore.retrieve PostgresMemoryStore.retrieve
    rw [herror]
    exact ⟨fun _ h => absurd h htrusted, fun _ => .raised .authenticationRequired rfl rfl⟩

theorem nodup_created (hids : ((created history).map MemoryRecord.id).Nodup) : (created history).Nodup :=
  hids.of_map _

/-- Where folding a text is lower-casing it and everything can be stored, the stores retrieve the same. -/
theorem retrieve_agrees_of_lower (hlimit : 0 ≤ limit)
    (hids : ((created history).map MemoryRecord.id).Nodup)
    (htimes : (created history).Pairwise fun a b => a.createdAt < b.createdAt)
    (hread : Readable binding platform principal query limit)
    (hstorable : ∀ record ∈ created history, record.storable = true)
    (hquery : sqlLower lowerChar (platform.casefold query) = (platform.casefold query).toList)
    (htexts : ∀ record ∈ created history,
      sqlLower lowerChar record.text = (platform.casefold record.text).toList) :
    SameAnswer Eq False
      (TenantMemoryStore.retrieve platform principal query kind confirmedOnly limit (memoryAfter history)).1
      (PostgresMemoryStore.retrieve binding platform lowerChar principal query kind confirmedOnly limit
        (tableAfter platform history)).1 := by
  refine (sameAnswer_iff hlimit hids htimes).mpr fun _ => ⟨hread, ?_⟩
  congr 1
  refine List.filter_congr fun record hrecord => ?_
  have hmatch : foldedMatch platform query record.text = loweredMatch platform lowerChar query record.text := by
    simp [foldedMatch, loweredMatch, PostgresMemoryStore.contains, hquery, htexts record hrecord]
  rw [isMatch_eq, isSelected, hstorable record hrecord, Bool.true_and, hmatch]

/-- After the same additions both stores retrieve the same exactly when the `SELECT` can be run and, until
the limit is reached, a record contains the query folded just when it is stored and contains it lower-cased. -/
theorem retrieve_agrees_iff (hlimit : 0 ≤ limit) (hids : ((created history).map MemoryRecord.id).Nodup)
    (htimes : (created history).Pairwise fun a b => a.createdAt < b.createdAt) :
    SameAnswer Eq False
        (TenantMemoryStore.retrieve platform principal query kind confirmedOnly limit (memoryAfter history)).1
        (PostgresMemoryStore.retrieve binding platform lowerChar principal query kind confirmedOnly limit
          (tableAfter platform history)).1 ↔
      (principal.trusted = true → Readable binding platform principal query limit ∧
        ∀ earlier record later, created history = earlier ++ record :: later →
          isCandidate principal kind confirmedOnly record = true →
          ((earlier.filter (TenantMemoryStore.isMatch platform principal query kind confirmedOnly)).length :
            Int) < limit →
          (foldedMatch platform query record.text = true ↔
            record.storable = true ∧ loweredMatch platform lowerChar query record.text = true)) := by
  rw [sameAnswer_iff hlimit hids htimes, take_filter_eq_iff (nodup_created hids)]
  refine forall_congr' fun _ => and_congr_right fun _ => ?_
  refine forall₃_congr fun earlier record later => forall_congr' fun _ => ?_
  have hreached : (earlier.filter (TenantMemoryStore.isMatch platform principal query kind
      confirmedOnly)).length < limit.toNat ↔ ((earlier.filter (TenantMemoryStore.isMatch platform principal
        query kind confirmedOnly)).length : Int) < limit := by
    omega
  rw [hreached, isMatch_eq, isSelected]
  cases isCandidate principal kind confirmedOnly record with
  | false => simp
  | true =>
    simp only [Bool.true_and, forall_true_left]
    exact forall_congr' fun _ => by rw [Bool.eq_iff_iff, Bool.and_eq_true]

end Reading

section Samples

/-- A platform that folds ASCII letters and the sharp s. -/
def foldingPlatform : Platform :=
  { Platform.ofTable [] with
    casefold := fun text =>
      String.ofList (text.toList.flatMap fun c => if c = 'ß' then ['s', 's'] else [c.toLower]) }

def remembered (text : String) (fresh : Uuid) (now : Instant) : MemoryAdd where
  principal := .sample
  kind := .semantic
  text := text
  source := "chat"
  confirmed := true
  fresh := fresh
  now := now

theorem one_le_maxMicros : 1 ≤ maxMicros := by decide

def sampleMemories : List MemoryAdd :=
  [remembered "Buy MILK" .zero ⟨0, Nat.zero_le _⟩,
    remembered "Call Ana" ⟨"00000000000000000000000000000001", by decide⟩ ⟨1, one_le_maxMicros⟩]

/-- Texts that fold by lower-casing are retrieved alike where the values are literals. -/
theorem sample_retrieved_alike :
    SameAnswer Eq False
      (TenantMemoryStore.retrieve foldingPlatform .sample "Milk" none true 5 (memoryAfter sampleMemories)).1
      (PostgresMemoryStore.retrieve .client foldingPlatform Char.toLower .sample "Milk" none true 5
        (tableAfter foldingPlatform sampleMemories)).1 := by
  have hmatch : ∀ record ∈ created sampleMemories, (foldedMatch foldingPlatform "Milk" record.text = true ↔
      record.storable = true ∧ loweredMatch foldingPlatform Char.toLower "Milk" record.text = true) := by
    decide +kernel
  refine (retrieve_agrees_iff (by decide) (by decide +kernel) (by decide +kernel)).mpr fun _ =>
    ⟨⟨rfl, by decide, by decide, by decide, by decide⟩, fun earlier record later hcreated _ _ => ?_⟩
  exact hmatch record (by rw [hcreated]; simp)

/-- The default cursors retrieve nothing. With literals, a sharp s in a stored text is folded by one store and
kept by the other, a text with a NUL character is kept by one store only, and a limit beyond `BIGINT` is an
error of the server. -/
theorem retrieve_differs :
    let differ (binding : ParameterBinding) (history : List MemoryAdd) (query : String) (limit : Int) :=
      ((created history).map MemoryRecord.id).Nodup ∧
      (created history).Pairwise (fun a b => a.createdAt < b.createdAt) ∧ 0 ≤ limit ∧
      ¬ SameAnswer Eq False
        (TenantMemoryStore.retrieve foldingPlatform .sample query none true limit (memoryAfter history)).1
        (PostgresMemoryStore.retrieve binding foldingPlatform Char.toLower .sample query none true limit
          (tableAfter foldingPlatform history)).1
    differ .server [] "" 5 ∧
    differ .server [remembered "Buy MILK" .zero ⟨0, Nat.zero_le _⟩] "milk" 5 ∧
    differ .client [remembered "Straße" .zero ⟨0, Nat.zero_le _⟩] "straße" 5 ∧
    differ .client [remembered "a\x00b" .zero ⟨0, Nat.zero_le _⟩] "" 5 ∧
    differ .client [] "" 9223372036854775808 := by
  intro differ
  refine ⟨⟨by decide, by decide, by decide, fun h => h.code rfl⟩,
    ⟨by decide +kernel, by decide +kernel, by decide, fun h => ?_⟩,
    ⟨by decide +kernel, by decide +kernel, by decide, fun h => ?_⟩,
    ⟨by decide +kernel, by decide +kernel, by decide, fun h => ?_⟩,
    ⟨by decide, by decide, by decide, fun h => h.code rfl⟩⟩
  · exact absurd (congrArg (Option.map List.length) h.toOption_eq) (by decide +kernel)
  · exact absurd (congrArg (Option.map List.length) h.toOption_eq) (by decide +kernel)
  · exact absurd (congrArg (Option.map List.length) h.toOption_eq) (by decide +kernel)

end Samples

end PersonalAssistant

import PersonalAssistant.Lib.Dict
import PersonalAssistant.Migrations.Discovery

/-!
# The state of a migration history

`buildStatus` compares the rows of the history table with the local sequence: one loop over the rows
fills a dictionary by version, one loop over the sequence looks for gaps. It succeeds exactly on the
rows of a prefix of the sequence, in any order, and then splits the sequence at the end of that prefix.
-/
namespace PersonalAssistant

open Lib

structure MigrationStatus where
  schema : String
  historyExists : Bool
  applied : List AppliedMigration
  pending : List Migration

/-- What a row of the history keeps of a migration. -/
def Migration.identity (m : Migration) : Int × String × String := (m.version, m.name, m.checksum)

def AppliedMigration.identity (r : AppliedMigration) : Int × String × String :=
  (r.version, r.name, r.checksum)

/-- `local_by_version`. -/
def byVersion (migrations : List Migration) : Dict Int Migration :=
  migrations.foldl (fun d m => d.set m.version m) .empty

/-- One turn of the loop over the history. -/
def checkRecord (migrations : Dict Int Migration) (applied : Dict Int AppliedMigration)
    (record : AppliedMigration) : Except MigrationError (Dict Int AppliedMigration) :=
  if (applied.get? record.version).isSome then
    .error (.history (.duplicateVersion record.version))
  else match migrations.get? record.version with
    | none => .error (.history (.unknownApplied record.version record.name))
    | some migration =>
      if record.name ≠ migration.name then
        .error (.history (.nameChanged record.version record.name migration.name))
      else if record.checksum ≠ migration.checksum then
        .error (.history (.checksumMismatch migration.version migration.name record.checksum
          migration.checksum))
      else .ok (applied.set record.version record)

/-- The loop over the local sequence: the migrations without a row, provided no row comes behind one of
them. -/
def findPending (applied : Dict Int AppliedMigration) :
    Bool → List Migration → Except MigrationError (List Migration)
  | _, [] => .ok []
  | gap, m :: ms =>
    if (applied.get? m.version).isSome then
      if gap then .error (.history (.gapBefore m.version m.name)) else findPending applied gap ms
    else (findPending applied true ms).map (m :: ·)

def buildStatus (schema : String) (historyExists : Bool) (migrations : List Migration)
    (applied : List AppliedMigration) : Except MigrationError MigrationStatus := do
  let appliedByVersion ← applied.foldlM (checkRecord (byVersion migrations)) .empty
  let pending ← findPending appliedByVersion false migrations
  return {
    schema := schema
    historyExists := historyExists
    applied := migrations.filterMap fun m => appliedByVersion.get? m.version
    pending := pending }

/-! ## The dictionaries -/

section Keyed

variable {α : Type} {f : α → Int}

/-- A dictionary filled from a list without repeated keys holds its elements. -/
theorem get?_foldl_set {l : List α} (h : (l.map f).Nodup) (d : Dict Int α) (v : Int) :
    (l.foldl (fun d a => d.set (f a) a) d).get? v = (l.find? fun a => f a = v).or (d.get? v) := by
  induction l generalizing d with
  | nil => rfl
  | cons a l ih =>
    obtain ⟨ha, hl⟩ := List.nodup_cons.mp h
    rw [List.foldl_cons, ih hl, Dict.get?_set]
    by_cases hv : f a = v
    · have hnone : l.find? (fun b => f b = v) = none := by
        simp only [List.find?_eq_none, decide_eq_true_eq]
        intro b hb hbv
        exact ha (List.mem_map.mpr ⟨b, hb, hbv.trans hv.symm⟩)
      simp [hv, hnone]
    · simp [hv, Ne.symm hv]

theorem find?_key_eq_some {l : List α} (h : (l.map f).Nodup) {v : Int} {a : α} :
    l.find? (fun b => f b = v) = some a ↔ a ∈ l ∧ f a = v := by
  refine ⟨fun ha => ⟨List.mem_of_find?_eq_some ha, by simpa using List.find?_some ha⟩, ?_⟩
  rintro ⟨ha, hv⟩
  cases hfind : l.find? fun b => f b = v with
  | none => exact absurd hv (by simpa using List.find?_eq_none.mp hfind a ha)
  | some b =>
    have hb : f b = v := by simpa using List.find?_some hfind
    rw [List.inj_on_of_nodup_map h (List.mem_of_find?_eq_some hfind) ha (hb.trans hv.symm)]

theorem get?_filled {l : List α} (h : (l.map f).Nodup) {v : Int} {a : α} :
    (l.foldl (fun d a => d.set (f a) a) Dict.empty).get? v = some a ↔ a ∈ l ∧ f a = v := by
  rw [get?_foldl_set h, Dict.get?_empty, Option.or_none, find?_key_eq_some h]

end Keyed

variable {migrations : List Migration} {records : List AppliedMigration}

theorem byVersion_get? (h : (migrations.map Migration.version).Nodup) {v : Int} {m : Migration} :
    (byVersion migrations).get? v = some m ↔ m ∈ migrations ∧ m.version = v := get?_filled h

/-- A row of the sequence: it carries the identity of a local migration. -/
def Known (migrations : List Migration) (r : AppliedMigration) : Prop :=
  ∃ m ∈ migrations, m.identity = r.identity

theorem checkRecord_eq_ok (h : (migrations.map Migration.version).Nodup)
    {d d' : Dict Int AppliedMigration} {r : AppliedMigration} :
    checkRecord (byVersion migrations) d r = .ok d' ↔
      d.get? r.version = none ∧ Known migrations r ∧ d' = d.set r.version r := by
  unfold checkRecord
  cases hd : d.get? r.version with
  | some old => simp
  | none =>
    cases hm : (byVersion migrations).get? r.version with
    | none =>
      simp only [Option.isSome_none, Bool.false_eq_true, if_false, reduceCtorEq, true_and, false_iff,
        not_and]
      rintro ⟨m, hmem, hid⟩
      have hv : m.version = r.version := congrArg Prod.fst hid
      simp [(byVersion_get? h).mpr ⟨hmem, hv⟩] at hm
    | some m =>
      obtain ⟨hmem, hv⟩ := (byVersion_get? h).mp hm
      have hknown : Known migrations r ↔ r.name = m.name ∧ r.checksum = m.checksum := by
        constructor
        · rintro ⟨m', hm', hid⟩
          have hv' : m'.version = r.version := congrArg Prod.fst hid
          obtain rfl := List.inj_on_of_nodup_map h hm' hmem (hv'.trans hv.symm)
          simp only [Migration.identity, AppliedMigration.identity, Prod.mk.injEq] at hid
          exact ⟨hid.2.1.symm, hid.2.2.symm⟩
        · rintro ⟨hn, hc⟩
          exact ⟨m, hmem, by simp [Migration.identity, AppliedMigration.identity, hv, hn, hc]⟩
      rw [hknown]
      simp only [Option.isSome_none, Bool.false_eq_true, if_false, true_and]
      split_ifs with hn hc <;> simp_all [eq_comm]

/-- The first loop accepts rows with different versions that are all known, and stores each. -/
theorem checkRecords_eq_ok (h : (migrations.map Migration.version).Nodup)
    {d d' : Dict Int AppliedMigration} :
    records.foldlM (checkRecord (byVersion migrations)) d = .ok d' ↔
      (records.map AppliedMigration.version).Nodup ∧ (∀ r ∈ records, d.get? r.version = none) ∧
        (∀ r ∈ records, Known migrations r) ∧
        d' = records.foldl (fun d r => d.set r.version r) d := by
  induction records generalizing d with
  | nil => simp [pure, Except.pure, eq_comm]
  | cons r records ih =>
    rw [List.foldlM_cons, except_bind_eq_ok]
    simp only [checkRecord_eq_ok h, ih, List.map_cons, List.nodup_cons, List.forall_mem_cons,
      List.foldl_cons]
    constructor
    · rintro ⟨_, ⟨hnone, hknown, rfl⟩, hnodup, hfresh, hall, rfl⟩
      have hne : ∀ s ∈ records, s.version ≠ r.version := by
        intro s hs hv
        simpa [hv] using hfresh s hs
      refine ⟨⟨?_, hnodup⟩, ⟨hnone, fun s hs => ?_⟩, ⟨hknown, hall⟩, rfl⟩
      · simpa using hne
      · simpa [hne s hs] using hfresh s hs
    · rintro ⟨⟨hnew, hnodup⟩, ⟨hnone, hfresh⟩, ⟨hknown, hall⟩, rfl⟩
      refine ⟨_, ⟨hnone, hknown, rfl⟩, hnodup, fun s hs => ?_, hall, rfl⟩
      have hv : s.version ≠ r.version := fun hv => hnew (List.mem_map.mpr ⟨s, hs, hv⟩)
      rw [Dict.get?_set_of_ne _ _ hv]
      exact hfresh s hs

/-! ## The gap -/

theorem findPending_gap {applied : Dict Int AppliedMigration} {pending : List Migration} :
    findPending applied true migrations = .ok pending ↔
      (∀ m ∈ migrations, applied.get? m.version = none) ∧ pending = migrations := by
  induction migrations generalizing pending with
  | nil => simp [findPending, eq_comm]
  | cons m ms ih =>
    unfold findPending
    cases hm : applied.get? m.version with
    | some r => simp [hm]
    | none =>
      simp only [Option.isSome_none, Bool.false_eq_true, if_false, List.forall_mem_cons, hm, true_and]
      cases hrest : findPending applied true ms with
      | error e =>
        simp only [Except.map, reduceCtorEq, false_iff, not_and]
        intro hall _
        simpa [hrest] using ih.mpr ⟨hall, rfl⟩
      | ok rest =>
        obtain ⟨hall, rfl⟩ := ih.mp hrest
        simp only [Except.map, Except.ok.injEq]
        exact ⟨fun h => ⟨hall, h.symm⟩, fun h => h.2.symm⟩

/-- The second loop accepts rows exactly for a prefix, and returns the rest. -/
theorem findPending_eq_ok {applied : Dict Int AppliedMigration} {pending : List Migration} :
    findPending applied false migrations = .ok pending ↔
      ∃ n, (∀ m ∈ migrations.take n, (applied.get? m.version).isSome) ∧
        (∀ m ∈ migrations.drop n, applied.get? m.version = none) ∧ pending = migrations.drop n := by
  induction migrations with
  | nil =>
    refine ⟨fun h => ⟨0, by simp, by simp, (Except.ok.inj h).symm⟩, ?_⟩
    rintro ⟨n, -, -, rfl⟩
    simp [findPending]
  | cons m ms ih =>
    by_cases hm : (applied.get? m.version).isSome
    · rw [findPending, if_pos hm, if_neg (by simp), ih]
      constructor
      · rintro ⟨n, htake, hdrop, rfl⟩
        exact ⟨n + 1, by simpa [hm] using htake, hdrop, rfl⟩
      · rintro ⟨n, htake, hdrop, rfl⟩
        cases n with
        | zero => simp [hdrop m (by simp)] at hm
        | succ n => exact ⟨n, fun a ha => htake a (by simp [ha]), hdrop, rfl⟩
    · have hnone : applied.get? m.version = none := by simpa using hm
      have hgap : findPending applied false (m :: ms) = findPending applied true (m :: ms) := by
        rw [findPending, findPending, if_neg hm, if_neg hm]
      rw [hgap, findPending_gap]
      constructor
      · rintro ⟨hall, rfl⟩
        exact ⟨0, by simp, hall, rfl⟩
      · rintro ⟨n, htake, hdrop, rfl⟩
        cases n with
        | zero => exact ⟨hdrop, rfl⟩
        | succ n => simp [hnone] at htake

/-! ## Exactly the prefixes -/

theorem nodup_identity (h : (migrations.map Migration.version).Nodup) :
    (migrations.map Migration.identity).Nodup := by
  refine List.Nodup.of_map Prod.fst ?_
  simpa [Function.comp_def, Migration.identity] using h

theorem take_versions_nodup (h : (migrations.map Migration.version).Nodup) (n : Nat) :
    ((migrations.take n).map Migration.version).Nodup := by
  rw [List.map_take]
  exact h.sublist (List.take_sublist _ _)

/-- What a successful status says of the rows: they are those of the prefix that ends where `pending`
begins. -/
theorem buildStatus_spec (h : (migrations.map Migration.version).Nodup) {schema : String} {exists_ : Bool}
    {status : MigrationStatus} (hb : buildStatus schema exists_ migrations records = .ok status) :
    ∃ n, (records.map AppliedMigration.identity).Perm
        ((migrations.take n).map Migration.identity) ∧
      status.applied.map AppliedMigration.identity = (migrations.take n).map Migration.identity ∧
      status.pending = migrations.drop n := by
  unfold buildStatus at hb
  obtain ⟨d, hd, hb⟩ := except_bind_eq_ok.mp hb
  obtain ⟨pending, hp, hb⟩ := except_bind_eq_ok.mp hb
  cases hb
  obtain ⟨hnodup, -, hknown, hfilled⟩ := (checkRecords_eq_ok h).mp hd
  have hget : ∀ v r, d.get? v = some r ↔ r ∈ records ∧ r.version = v := by
    intro v r
    rw [hfilled, get?_filled hnodup]
  obtain ⟨n, htake, hdrop, rfl⟩ := findPending_eq_ok.mp hp
  -- a stored row of a version is the row of the local migration of that version
  have hrow : ∀ m ∈ migrations, ∀ r, d.get? m.version = some r → r.identity = m.identity := by
    intro m hm r hr
    obtain ⟨hrm, hv⟩ := (hget _ _).mp hr
    obtain ⟨m', hm', hid⟩ := hknown r hrm
    have hv' : m'.version = m.version := (congrArg Prod.fst hid).trans hv
    rw [← hid, List.inj_on_of_nodup_map h hm' hm hv']
  have htake' : ∀ m ∈ migrations.take n, m ∈ migrations := fun m hm => List.mem_of_mem_take hm
  have happlied : (migrations.filterMap fun m => d.get? m.version).map AppliedMigration.identity =
      (migrations.take n).map Migration.identity := by
    conv_lhs => rw [← List.take_append_drop n migrations]
    rw [List.filterMap_append, List.map_append]
    have hnil : (migrations.drop n).filterMap (fun m => d.get? m.version) = [] :=
      List.filterMap_eq_nil_iff.mpr hdrop
    rw [hnil, List.map_nil, List.append_nil, List.map_filterMap]
    have hsome : ∀ m ∈ migrations.take n,
        (d.get? m.version).map AppliedMigration.identity = some m.identity := by
      intro m hm
      obtain ⟨r, hr⟩ := Option.isSome_iff_exists.mp (htake m hm)
      rw [hr, Option.map_some, hrow m (htake' m hm) r hr]
    rw [List.filterMap_congr hsome, List.filterMap_eq_map']
  refine ⟨n, ?_, happlied, rfl⟩
  have hrecords : (records.map AppliedMigration.identity).Nodup :=
    List.Nodup.of_map Prod.fst (by simpa [Function.comp_def, AppliedMigration.identity] using hnodup)
  refine (List.perm_ext_iff_of_nodup hrecords (nodup_identity (take_versions_nodup h n))).mpr ?_
  intro e
  simp only [List.mem_map]
  constructor
  · rintro ⟨r, hr, rfl⟩
    obtain ⟨m, hm, hid⟩ := hknown r hr
    have hv : m.version = r.version := congrArg Prod.fst hid
    have hstored : d.get? m.version = some r := (hget _ _).mpr ⟨hr, hv.symm⟩
    rw [← List.take_append_drop n migrations, List.mem_append] at hm
    rcases hm with hm | hm
    · exact ⟨m, hm, hid⟩
    · simp [hdrop m hm] at hstored
  · rintro ⟨m, hm, rfl⟩
    obtain ⟨r, hr⟩ := Option.isSome_iff_exists.mp (htake m hm)
    exact ⟨r, ((hget _ _).mp hr).1, hrow m (htake' m hm) r hr⟩

/-- The rows of a prefix are accepted. -/
theorem buildStatus_of_prefix (h : (migrations.map Migration.version).Nodup) {n : Nat}
    (hperm : (records.map AppliedMigration.identity).Perm
      ((migrations.take n).map Migration.identity)) (schema : String) (exists_ : Bool) :
    ∃ status, buildStatus schema exists_ migrations records = .ok status := by
  have hversions : (records.map AppliedMigration.version).Perm
      ((migrations.take n).map Migration.version) := by
    simpa [Function.comp_def, AppliedMigration.identity, Migration.identity] using hperm.map Prod.fst
  have hnodup : (records.map AppliedMigration.version).Nodup :=
    hversions.nodup_iff.mpr (take_versions_nodup h n)
  have hknown : ∀ r ∈ records, Known migrations r := by
    intro r hr
    obtain ⟨m, hm, hid⟩ := List.mem_map.mp (hperm.mem_iff.mp (List.mem_map_of_mem hr))
    exact ⟨m, List.mem_of_mem_take hm, hid⟩
  have hd : records.foldlM (checkRecord (byVersion migrations)) .empty = .ok _ :=
    (checkRecords_eq_ok h).mpr ⟨hnodup, by simp, hknown, rfl⟩
  have hget := fun v r => @get?_filled _ AppliedMigration.version records hnodup v r
  generalize records.foldl (fun d r => d.set r.version r) Dict.empty = d at hd hget
  have hpending : findPending d false migrations = .ok (migrations.drop n) := by
    refine findPending_eq_ok.mpr ⟨n, fun m hm => ?_, fun m hm => ?_, rfl⟩
    · obtain ⟨r, hr, hv⟩ := List.mem_map.mp (hversions.mem_iff.mpr (List.mem_map_of_mem hm))
      rw [(hget _ _).mpr ⟨hr, hv⟩]
      rfl
    · cases hr : d.get? m.version with
      | none => rfl
      | some r =>
        obtain ⟨hmem, hv⟩ := (hget _ _).mp hr
        have hin := hversions.mem_iff.mp (List.mem_map_of_mem hmem)
        rw [hv] at hin
        rw [← List.take_append_drop n migrations, List.map_append] at h
        exact absurd (List.mem_map_of_mem hm) (List.disjoint_of_nodup_append h hin)
  refine ⟨⟨schema, exists_, migrations.filterMap fun m => d.get? m.version, migrations.drop n⟩, ?_⟩
  unfold buildStatus
  rw [hd, except_ok_bind, hpending, except_ok_bind]
  rfl

end PersonalAssistant

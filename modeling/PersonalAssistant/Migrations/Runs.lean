import PersonalAssistant.Lib.Ports
import PersonalAssistant.Migrations.Status

/-!
# Runs of the migration runner

`applyMigrations` as a program over a database session: discover the files, take the advisory lock, read
the history, apply what is pending one transaction at a time, and read the history again. Any number of
runs share the database; a session may end at any call, and its lock then passes to the next run.
-/
namespace PersonalAssistant

open Lib Program

structure MigrationApplyResult where
  schema : String
  applied : List Migration
  status : MigrationStatus

/-- The arguments of `apply_migrations`; of a given connection, whether it commits automatically. -/
structure MigrationRun where
  schema : String
  dsn : Option String
  connection : Option Bool

/-- A call on the file system or on the session of a run. -/
inductive MigrationCall where
  | discover
  | connect
  | lock
  | ensureHistory
  | readApplied
  | applyOne (migration : Migration)
  | unlock
  | close

def MigrationCall.Resp : MigrationCall → Type
  | discover => Except MigrationError (List Migration)
  | connect | lock | ensureHistory | applyOne _ => Except MigrationError Unit
  | readApplied => Except MigrationError (List AppliedMigration)
  | unlock => Except MigrationError (Option Bool)
  | close => Unit

def migrationCalls : Signature := ⟨MigrationCall, MigrationCall.Resp⟩

abbrev MigrationProgram (α : Type) := Program migrationCalls MigrationError α

/-! ## The runner -/

namespace MigrationRun

def discover : MigrationProgram (List Migration) := do
  let r ← @perform migrationCalls _ .discover
  ofExcept r

def ensureHistory : MigrationProgram Unit := do
  let r ← @perform migrationCalls _ .ensureHistory
  ofExcept r

def readApplied : MigrationProgram (List AppliedMigration) := do
  let r ← @perform migrationCalls _ .readApplied
  ofExcept r

/-- `_apply_one`: whatever fails is reported as a rolled-back migration. -/
def applyOne (migration : Migration) : MigrationProgram Unit := do
  let r ← @perform migrationCalls _ (.applyOne migration)
  match r with
  | .ok () => return ()
  | .error _ => raise (.execution migration.version migration.name)

/-- The loop over the pending migrations. -/
def applyPending : List Migration → MigrationProgram (List Migration)
  | [] => return []
  | m :: ms => do
    applyOne m
    let rest ← applyPending ms
    return m :: rest

def connect : MigrationProgram Unit := do
  let r ← @perform migrationCalls _ .connect
  ofExcept r

def lock : MigrationProgram Unit := do
  let r ← @perform migrationCalls _ .lock
  ofExcept r

def unlock : MigrationProgram Unit := do
  let r ← @perform migrationCalls _ .unlock
  let row ← ofExcept r
  if row = some false then raise .lockNotHeld else return ()

def close : MigrationProgram Unit := @perform migrationCalls _ .close

/-- `with _advisory_lock(connection, schema): body`. -/
def withLock {α : Type} (body : MigrationProgram α) : MigrationProgram α := do
  lock
  body.ensure unlock

/-- `with _open_connection(dsn=dsn, connection=connection): body`. -/
def withConnection {α : Type} (run : MigrationRun) (body : MigrationProgram α) : MigrationProgram α :=
  match run.connection with
  | some autocommit =>
    if run.dsn.isSome then raise (.configuration "provide only one of dsn or connection")
    else if !autocommit then
      raise (.configuration "provided migration connection must have autocommit enabled")
    else body
  | none =>
    if run.dsn.all (fun dsn => strip dsn = "") then
      raise (.configuration "DATABASE_URL is required for migrations")
    else do
      connect
      body.ensure close

/-- The block of `apply_migrations` under both context managers. -/
def applyLocked (schema : String) (migrations : List Migration) :
    MigrationProgram MigrationApplyResult := do
  ensureHistory
  let rows ← readApplied
  let before ← ofExcept (buildStatus schema true migrations rows)
  let appliedNow ← applyPending before.pending
  let rows ← readApplied
  let after ← ofExcept (buildStatus schema true migrations rows)
  return ⟨schema, appliedNow, after⟩

def applyMigrations (run : MigrationRun) : MigrationProgram MigrationApplyResult := do
  let schema ← ofExcept (validateIdentifier run.schema "schema")
  let migrations ← discover
  run.withConnection (withLock (applyLocked schema migrations))

end MigrationRun

/-! ## The database -/

/-- The migration directory and the schema: the history table, if it exists, with its rows in the order
they were committed; the migrations whose SQL was committed; the session that holds the advisory lock;
and the sessions that have ended. `read` is a record kept beside the database: the sequence that a run
has read from the directory. -/
structure MigrationDatabase (ι : Type) where
  directory : MigrationDirectory
  history : Option (List AppliedMigration)
  executed : List Migration
  holder : Option ι
  gone : Set ι
  read : ι → Option (List Migration)

namespace MigrationDatabase

variable {ι : Type}

def rows (s : MigrationDatabase ι) : List AppliedMigration := s.history.getD []

/-- A schema nothing was applied to. -/
def fresh (ι : Type) (directory : MigrationDirectory) : MigrationDatabase ι :=
  ⟨directory, none, [], none, ∅, fun _ => none⟩

/-- New migrations may have been added to the directory. -/
def Extends (platform : Platform) (directory directory' : MigrationDirectory) : Prop :=
  ∀ ms, discoverMigrations platform directory = .ok ms →
    ∃ ms', discoverMigrations platform directory' = .ok ms' ∧ ms <+: ms'

/-- The row `_apply_one` inserts. -/
def rowOf (m : Migration) (appliedAt : Instant) : AppliedMigration :=
  ⟨m.version, m.name, m.checksum, appliedAt⟩

/-- The transaction of a migration committed; the primary key admits one row per version. -/
def Commits (m : Migration) (s s' : MigrationDatabase ι) : Prop :=
  ∃ rows appliedAt, s.history = some rows ∧ (∀ r ∈ rows, r.version ≠ m.version) ∧
    s' = { s with
      history := some (rows ++ [rowOf m appliedAt])
      executed := s.executed ++ [m] }

/-- The call failed and changed nothing. -/
def Failed {α : Type} (s : MigrationDatabase ι) (r : Except MigrationError α)
    (s' : MigrationDatabase ι) : Prop := (∃ name, r = .error (.external name)) ∧ s' = s

/-- What a call of run `i` may do. Every call on a session may fail, and does once the session ended; a
commit may happen without being reported. -/
def Effect [DecidableEq ι] (platform : Platform) (i : ι) : (c : MigrationCall) → MigrationDatabase ι → c.Resp →
    MigrationDatabase ι → Prop
  | .discover, s, r, s' => ∃ directory, Extends platform s.directory directory ∧
      r = discoverMigrations platform directory ∧
      s' = { s with directory := directory, read := Function.update s.read i r.toOption }
  | .connect, s, r, s' => Failed s r s' ∨ r = .ok () ∧ s' = s
  | .lock, s, r, s' => Failed s r s' ∨ i ∉ s.gone ∧ r = .ok () ∧
      (s.holder = none ∧ s' = { s with holder := some i } ∨
        ∃ j, j ≠ i ∧ s.holder = some j ∧ s' = { s with holder := some i, gone := insert j s.gone })
  | .ensureHistory, s, r, s' => Failed s r s' ∨
      i ∉ s.gone ∧ r = .ok () ∧ s' = { s with history := some s.rows }
  | .readApplied, s, r, s' => Failed s r s' ∨ i ∉ s.gone ∧ s' = s ∧
      ∃ rows, s.history = some rows ∧ r = .ok (rows.insertionSort fun a b => a.version ≤ b.version)
  | .applyOne m, s, r, s' => Failed s r s' ∨
      i ∉ s.gone ∧ Commits m s s' ∧ (r = .ok () ∨ ∃ name, r = .error (.external name))
  | .unlock, s, r, s' => Failed s r s' ∨ i ∉ s.gone ∧
      (s.holder = some i ∧ r = .ok (some true) ∧ s' = { s with holder := none } ∨
        s.holder ≠ some i ∧ r = .ok (some false) ∧ s' = s)
  | .close, s, _, s' => (s.holder = some i ∧ s' = { s with holder := none }) ∨
      (s.holder ≠ some i ∧ s' = s)

/-! ## Invariant, rely and guarantee -/

variable {platform : Platform} {i : ι} {s s' : MigrationDatabase ι}

/-- The committed migrations are a prefix of the local sequence, and the history records them. -/
structure Inv (platform : Platform) (s : MigrationDatabase ι) : Prop where
  executed : ∃ current, discoverMigrations platform s.directory = .ok current ∧ s.executed <+: current
  rows : s.rows.map AppliedMigration.identity = s.executed.map Migration.identity

/-- What every step keeps: nothing committed is lost, the directory only grows, and what a run reads
begins with what was there. -/
structure Grows (platform : Platform) (s s' : MigrationDatabase ι) : Prop where
  directory : Extends platform s.directory s'.directory
  executed : s.executed <+: s'.executed
  gone : s.gone ⊆ s'.gone
  read : ∀ i ms, s'.read i = some ms → s.read i = some ms ∨
    ∀ current, discoverMigrations platform s.directory = .ok current → current <+: ms

/-- Nothing is committed under the lock of `k`, unless its session ended. -/
def Respects (k : ι) (s s' : MigrationDatabase ι) : Prop :=
  s.holder = some k → k ∈ s'.gone ∨ s'.holder = some k ∧ s'.executed = s.executed

structure Guarantee (platform : Platform) (i : ι) (s s' : MigrationDatabase ι) : Prop where
  grows : Grows platform s s'
  respects : ∀ k, k ≠ i → Respects k s s'
  read : ∀ k, k ≠ i → s'.read k = s.read k

structure Rely (platform : Platform) (i : ι) (s s' : MigrationDatabase ι) : Prop where
  grows : Grows platform s s'
  respects : Respects i s s'
  read : s'.read i = s.read i

theorem extends_refl (directory : MigrationDirectory) : Extends platform directory directory :=
  fun ms h => ⟨ms, h, List.prefix_rfl⟩

theorem Extends.trans {directory directory' directory'' : MigrationDirectory}
    (h : Extends platform directory directory') (h' : Extends platform directory' directory'') :
    Extends platform directory directory'' := by
  intro ms hms
  obtain ⟨ms', hms', hp⟩ := h ms hms
  obtain ⟨ms'', hms'', hp'⟩ := h' ms' hms'
  exact ⟨ms'', hms'', hp.trans hp'⟩

theorem Grows.refl (s : MigrationDatabase ι) : Grows platform s s :=
  ⟨extends_refl _, List.prefix_rfl, subset_rfl, fun _ _ h => .inl h⟩

/-- A step that reads nothing from the directory. -/
theorem Grows.of_unread (hdirectory : s'.directory = s.directory) (hread : s'.read = s.read)
    (hexecuted : s.executed <+: s'.executed) (hgone : s.gone ⊆ s'.gone) : Grows platform s s' where
  directory := hdirectory ▸ extends_refl _
  executed := hexecuted
  gone := hgone
  read i _ h := .inl (congrFun hread i ▸ h)

theorem Grows.trans {t : MigrationDatabase ι} (h : Grows platform s s') (h' : Grows platform s' t) :
    Grows platform s t where
  directory := h.directory.trans h'.directory
  executed := h.executed.trans h'.executed
  gone := h.gone.trans h'.gone
  read i ms hms := by
    rcases h'.read i ms hms with hread | hlater
    · exact h.read i ms hread
    · right
      intro current hcurrent
      obtain ⟨current', hcurrent', hp⟩ := h.directory current hcurrent
      exact hp.trans (hlater current' hcurrent')

theorem Guarantee.refl (s : MigrationDatabase ι) : Guarantee platform i s s :=
  ⟨.refl s, fun _ _ h => .inr ⟨h, rfl⟩, fun _ _ => rfl⟩

/-! ## Knowledge -/

/-- Run `i` has read `ms` from the directory. -/
def HasRead (platform : Platform) (i : ι) (ms : List Migration) (s : MigrationDatabase ι) : Prop :=
  s.read i = some ms ∧ Contiguous ms ∧
    ∃ current, discoverMigrations platform s.directory = .ok current ∧ ms <+: current

/-- Run `i` holds the lock and `P` is true of what was committed, unless its session ended. -/
def Holding (i : ι) (P : List Migration → Prop) (s : MigrationDatabase ι) : Prop :=
  i ∈ s.gone ∨ s.holder = some i ∧ P s.executed

abbrev StableFor (platform : Platform) (i : ι) (P : MigrationDatabase ι → Prop) : Prop :=
  Stable (Inv platform) (Rely platform i) P

theorem stable_hasRead (ms : List Migration) : StableFor platform i (HasRead platform i ms) := by
  rintro s s' - - ⟨hread, hc, current, hcur, hp⟩ hr
  obtain ⟨current', hcur', hp'⟩ := hr.grows.directory current hcur
  exact ⟨hr.read.trans hread, hc, current', hcur', hp.trans hp'⟩

theorem stable_holding (P : List Migration → Prop) :
    StableFor platform i (Holding i P) := by
  rintro s s' - - (hgone | ⟨hhold, hP⟩) hr
  · exact .inl (hr.grows.gone hgone)
  · rcases hr.respects hhold with hgone | ⟨hhold', he⟩
    · exact .inl hgone
    · exact .inr ⟨hhold', by rwa [he]⟩

/-- A holder whose session lives knows what it protects. -/
theorem Holding.of_alive {P : List Migration → Prop} (h : Holding i P s) (ha : i ∉ s.gone) :
    s.holder = some i ∧ P s.executed :=
  h.resolve_left ha

/-- Changes to what the lock protects, made by its holder. -/
theorem guarantee_of_holder (hhold : s.holder = some i) (hg : Grows platform s s')
    (hread : s'.read = s.read) : Guarantee platform i s s' :=
  ⟨hg, fun _ hk h => absurd (Option.some.inj (h.symm.trans hhold)) hk, fun k _ => congrFun hread k⟩

/-! ## One call -/

/-- Run `i` keeps the invariant and its guarantee, and what it returns satisfies `K`. -/
abbrev SafeRun {α : Type} [DecidableEq ι] (platform : Platform) (i : ι) (p : MigrationProgram α)
    (P : MigrationDatabase ι → Prop) (K : α → MigrationDatabase ι → Prop) : Prop :=
  p.Safe (S := migrationCalls) (Effect platform i) (Inv platform) (Rely platform i)
    (Guarantee platform i) (OnOk K) P

section Calls

variable [DecidableEq ι] {P : MigrationDatabase ι → Prop} {ms : List Migration} {n : Nat}

theorem safe_discover :
    SafeRun platform i MigrationRun.discover (fun _ => True) (HasRead platform i) := by
  refine Safe.call (.onOk stable_hasRead) ?_ .ofExcept
  rintro s r s' hinv - ⟨directory, hext, rfl, rfl⟩
  obtain ⟨current, hcur, hp⟩ := hinv.executed
  obtain ⟨current', hcur', hp'⟩ := hext current hcur
  have hextended : ∀ known, discoverMigrations platform s.directory = .ok known → known <+: current' := by
    intro known hknown
    cases hcur.symm.trans hknown
    exact hp'
  rw [hcur']
  refine ⟨⟨⟨current', hcur', hp.trans hp'⟩, hinv.rows⟩,
    ⟨⟨hext, List.prefix_rfl, subset_rfl, ?_⟩, fun _ _ h => .inr ⟨h, rfl⟩, ?_⟩,
    Function.update_self .., contiguous_of_discover hcur', current', hcur', List.prefix_rfl⟩
  · intro k ms hms
    by_cases hk : k = i
    · subst hk
      have hsame : current' = ms := by simpa [Except.toOption] using hms
      exact .inr (hsame ▸ hextended)
    · exact .inl (by simpa [Function.update_of_ne hk] using hms)
  · intro k hk
    exact Function.update_of_ne hk ..

theorem safe_connect (ms : List Migration) :
    SafeRun platform i MigrationRun.connect (HasRead platform i ms) fun _ => HasRead platform i ms := by
  refine Safe.call (.onOk fun _ => stable_hasRead ms) ?_ .ofExcept
  rintro s r s' hinv hread (⟨⟨name, rfl⟩, rfl⟩ | ⟨rfl, rfl⟩)
  · exact ⟨hinv, .refl s', trivial⟩
  · exact ⟨hinv, .refl s', hread⟩

/-- Taking the lock: whoever held it has ended. -/
theorem safe_lock (ms : List Migration) : SafeRun platform i MigrationRun.lock (HasRead platform i ms)
    fun _ s => HasRead platform i ms s ∧ Holding i (fun _ => True) s := by
  refine Safe.call (.onOk fun _ => (stable_hasRead ms).and (stable_holding _)) ?_ .ofExcept
  rintro s r s' hinv hread (⟨⟨name, rfl⟩, rfl⟩ | ⟨-, rfl, ⟨hnone, rfl⟩ | ⟨j, hj, hhold, rfl⟩⟩)
  · exact ⟨hinv, .refl s', trivial⟩
  · refine ⟨⟨hinv.executed, hinv.rows⟩, ⟨.of_unread rfl rfl List.prefix_rfl subset_rfl, ?_,
      fun _ _ => rfl⟩, hread, .inr ⟨rfl, trivial⟩⟩
    intro k _ hk
    simp [hnone] at hk
  · refine ⟨⟨hinv.executed, hinv.rows⟩, ⟨.of_unread rfl rfl List.prefix_rfl (Set.subset_insert _ _), ?_,
      fun _ _ => rfl⟩, hread, .inr ⟨rfl, trivial⟩⟩
    intro k _ hk
    cases hhold.symm.trans hk
    exact .inl (Set.mem_insert _ _)

/-- Creating the history table changes no row. -/
theorem safe_ensureHistory (ms : List Migration) : SafeRun platform i MigrationRun.ensureHistory
    (fun s => HasRead platform i ms s ∧ Holding i (fun _ => True) s)
    fun _ s => HasRead platform i ms s ∧ Holding i (fun _ => True) s := by
  refine Safe.call (.onOk fun _ => (stable_hasRead ms).and (stable_holding _)) ?_ .ofExcept
  rintro s r s' hinv ⟨hread, hhold⟩ (⟨⟨name, rfl⟩, rfl⟩ | ⟨halive, rfl, rfl⟩)
  · exact ⟨hinv, .refl s', trivial⟩
  · obtain ⟨hheld, -⟩ := hhold.of_alive halive
    exact ⟨⟨hinv.executed, hinv.rows⟩,
      guarantee_of_holder hheld (.of_unread rfl rfl List.prefix_rfl subset_rfl) rfl, hread,
      .inr ⟨hheld, trivial⟩⟩

/-- The rows of a history that records `executed`, in any order. -/
def Records (rows : List AppliedMigration) (executed : List Migration) : Prop :=
  (rows.map AppliedMigration.identity).Perm (executed.map Migration.identity)

/-- Reading the history under the lock. -/
theorem safe_readApplied {K : List Migration → Prop} :
    SafeRun platform i MigrationRun.readApplied
      (fun s => HasRead platform i ms s ∧ Holding i (fun ex => K ex) s)
      fun rows s => HasRead platform i ms s ∧
        Holding i (fun ex => K ex ∧ Records rows ex) s ∧
        ∃ ex, K ex ∧ Records rows ex ∧ ex <+: s.executed := by
  refine Safe.call (.onOk fun rows => (stable_hasRead ms).and ((stable_holding _).and ?_)) ?_ .ofExcept
  · rintro s s' - - ⟨ex, hK, hrec, hp⟩ hr
    exact ⟨ex, hK, hrec, hp.trans hr.grows.executed⟩
  rintro s r s' hinv ⟨hread, hhold⟩ (⟨⟨name, rfl⟩, rfl⟩ | ⟨halive, rfl, rows, hrows, rfl⟩)
  · exact ⟨hinv, .refl s', trivial⟩
  · obtain ⟨hheld, hK⟩ := hhold.of_alive halive
    have hrec : Records (rows.insertionSort fun a b => a.version ≤ b.version) s'.executed := by
      have hr : s'.rows = rows := by simp [MigrationDatabase.rows, hrows]
      rw [Records, ← hinv.rows, hr]
      exact (List.perm_insertionSort _ _).map _
    exact ⟨hinv, .refl s', hread, .inr ⟨hheld, hK, hrec⟩, s'.executed, hK, hrec, List.prefix_rfl⟩

/-- Committing the next migration of the sequence. -/
theorem safe_applyOne {m : Migration} {rest : List Migration} (hm : ms.drop n = m :: rest) :
    SafeRun platform i (MigrationRun.applyOne m)
      (fun s => HasRead platform i ms s ∧ Holding i (fun ex => ex = ms.take n) s)
      fun _ s => HasRead platform i ms s ∧ Holding i (fun ex => ex = ms.take (n + 1)) s := by
  have htake : ms.take (n + 1) = ms.take n ++ [m] := by
    have hget : ms[n]? = some m := by
      rw [← List.head?_drop, hm, List.head?_cons]
    rw [List.take_add_one, hget]
    rfl
  refine Safe.call (M := OnOk fun _ s => HasRead platform i ms s ∧
      Holding i (fun ex => ex = ms.take (n + 1)) s)
    (.onOk fun _ => (stable_hasRead ms).and (stable_holding _)) ?_ fun r => ?_
  · rintro s r s' hinv ⟨hread, hhold⟩ (⟨⟨name, rfl⟩, rfl⟩ | ⟨halive, ⟨rows, at_, hrows, -, rfl⟩, hr⟩)
    · exact ⟨hinv, .refl s', trivial⟩
    · obtain ⟨hheld, hex⟩ := hhold.of_alive halive
      obtain ⟨-, -, current, hcur, hp⟩ := id hread
      have hex' : s.executed ++ [m] = ms.take (n + 1) := by rw [hex, htake]
      have hinv' : Inv platform { s with
          history := some (rows ++ [rowOf m at_])
          executed := s.executed ++ [m] } := by
        refine ⟨⟨current, hcur, ?_⟩, ?_⟩
        · rw [hex']
          exact (List.take_prefix _ _).trans hp
        · have hr : s.rows = rows := by simp [MigrationDatabase.rows, hrows]
          have := hinv.rows
          simp_all [MigrationDatabase.rows, rowOf, AppliedMigration.identity, Migration.identity]
      refine ⟨hinv', guarantee_of_holder hheld
        (.of_unread rfl rfl (List.prefix_append _ _) subset_rfl) rfl, ?_⟩
      rcases hr with rfl | ⟨name, rfl⟩
      · exact ⟨hread, .inr ⟨hheld, hex'⟩⟩
      · trivial
  · cases r with
    | ok u => exact safe_ret.mpr fun _ _ h => h
    | error e => exact safe_raise.mpr fun _ _ _ => trivial

/-- The loop over the pending migrations executes the rest of the sequence. -/
theorem safe_applyPending {pending : List Migration} (hpending : ms.drop n = pending) :
    SafeRun platform i (MigrationRun.applyPending pending)
      (fun s => HasRead platform i ms s ∧ Holding i (fun ex => ex = ms.take n) s)
      fun _ s => HasRead platform i ms s ∧ Holding i (fun ex => ex = ms) s := by
  induction pending generalizing n with
  | nil =>
    have hall : ms.take n = ms := List.take_of_length_le (List.drop_eq_nil_iff.mp hpending)
    rw [hall]
    exact safe_ret.mpr fun _ _ h => h
  | cons m rest ih =>
    have hrest : ms.drop (n + 1) = rest := by
      rw [← List.drop_drop, hpending, List.drop_one, List.tail_cons]
    refine (safe_applyOne hpending).then fun _ => (ih hrest).then fun _ => ?_
    exact safe_ret.mpr fun _ _ h => h

/-- Giving the lock back changes nothing it protects. -/
theorem safe_unlock (hstable : StableFor platform i P)
    (hP : ∀ s h, P s → P { s with holder := h }) :
    SafeRun platform i MigrationRun.unlock P fun _ => P := by
  have hcall : SafeRun platform i (do
      let r ← @perform migrationCalls _ .unlock
      ofExcept r) P fun _ => P := by
    refine Safe.call (.onOk fun _ => hstable) ?_ .ofExcept
    rintro s r s' hinv hp (⟨⟨name, rfl⟩, rfl⟩ | ⟨-, ⟨hhold, rfl, rfl⟩ | ⟨-, rfl, rfl⟩⟩)
    · exact ⟨hinv, .refl s', trivial⟩
    · exact ⟨⟨hinv.executed, hinv.rows⟩, guarantee_of_holder hhold
        (.of_unread rfl rfl List.prefix_rfl subset_rfl) rfl, hP s none hp⟩
    · exact ⟨hinv, .refl s', hp⟩
  refine hcall.then fun row => ?_
  split_ifs
  · exact safe_raise.mpr fun _ _ _ => trivial
  · exact safe_ret.mpr fun _ _ h => h

theorem safe_close (hstable : StableFor platform i P) (hP : ∀ s h, P s → P { s with holder := h }) :
    SafeRun platform i MigrationRun.close P fun _ => P := by
  refine Safe.call (fun _ => hstable) ?_ fun _ => safe_ret.mpr fun _ _ h => h
  rintro s r s' hinv hp (⟨hhold, rfl⟩ | ⟨-, rfl⟩)
  · exact ⟨⟨hinv.executed, hinv.rows⟩, guarantee_of_holder hhold
      (.of_unread rfl rfl List.prefix_rfl subset_rfl) rfl, hP s none hp⟩
  · exact ⟨hinv, .refl s', hp⟩

end Calls

/-! ## A whole run -/

/-- What a run that returned has done: the sequence it read is committed from its first migration to its
last, the reported rows are its rows, and nothing is pending. -/
def Finished (platform : Platform) (i : ι) (result : MigrationApplyResult) (s : MigrationDatabase ι) :
    Prop :=
  ∃ ms, HasRead platform i ms s ∧ ms <+: s.executed ∧ result.status.pending = [] ∧
    result.status.applied.map AppliedMigration.identity = ms.map Migration.identity

theorem stable_finished (result : MigrationApplyResult) :
    StableFor platform i (Finished platform i result) := by
  rintro s s' hi hi' ⟨ms, hread, hp, hpending, happlied⟩ hr
  exact ⟨ms, stable_hasRead ms s s' hi hi' hread hr, hp.trans hr.grows.executed, hpending, happlied⟩

/-- A prefix of the sequence is known by what it records. -/
theorem take_of_records {ms current ex : List Migration} {rows : List AppliedMigration} {n : Nat}
    (hms : ms <+: current) (hex : ex <+: current) (hrec : Records rows ex)
    (hperm : Records rows (ms.take n)) : ex = ms.take n := by
  have hlen : ex.length = (ms.take n).length := by
    have := (hrec.symm.trans hperm).length_eq
    simpa using this
  exact ((List.prefix_of_prefix_length_le hex ((List.take_prefix n ms).trans hms) hlen.le)).eq_of_length
    hlen

section Run

variable [DecidableEq ι]

theorem safe_applyLocked (schema : String) (ms : List Migration) :
    SafeRun platform i (MigrationRun.applyLocked schema ms)
      (fun s => HasRead platform i ms s ∧ Holding i (fun _ => True) s) (Finished platform i) := by
  refine (safe_ensureHistory ms).then fun _ => safe_readApplied.then fun rows => ?_
  refine .check (fun _ _ _ _ _ => trivial) fun before hbefore => ?_
  refine .know (fun _ _ h => h.1.2.1) fun hc : Contiguous ms => ?_
  obtain ⟨n, hperm, -, hpending⟩ := buildStatus_spec hc.nodup_versions hbefore
  refine ((safe_applyPending hpending.symm).pre ?_).then fun _ => ?_
  · rintro s hinv ⟨hread, hhold, -⟩
    refine ⟨hread, hhold.imp_right fun ⟨hheld, _, hrec⟩ => ⟨hheld, ?_⟩⟩
    obtain ⟨-, -, current, hcur, hp⟩ := hread
    obtain ⟨current', hcur', hp'⟩ := hinv.executed
    cases hcur.symm.trans hcur'
    exact take_of_records hp hp' hrec hperm
  refine safe_readApplied.then fun rows' => ?_
  refine .check (fun _ _ _ _ _ => trivial) fun after hafter => safe_ret.mpr ?_
  rintro s - ⟨hread, -, ex, rfl, hrec, hp⟩
  obtain ⟨k, hperm', happlied, hpending'⟩ := buildStatus_spec hc.nodup_versions hafter
  have hall : ex = ex.take k := take_of_records List.prefix_rfl List.prefix_rfl hrec hperm'
  refine ⟨ex, hread, hp, ?_, by rw [happlied, ← hall]⟩
  rw [hpending', List.drop_eq_nil_iff]
  rw [hall]
  simp

theorem safe_applyMigrations (run : MigrationRun) :
    SafeRun platform i run.applyMigrations (fun _ => True) (Finished platform i) := by
  refine .check (fun _ _ _ _ _ => trivial) fun schema _ => safe_discover.then fun ms => ?_
  have hfinish : ∀ (s : MigrationDatabase ι) h result, Finished platform i result s →
      Finished platform i result { s with holder := h } := fun s h result hf => hf
  have hlocked : SafeRun platform i (MigrationRun.withLock (MigrationRun.applyLocked schema ms))
      (HasRead platform i ms) (Finished platform i) := by
    refine (safe_lock ms).then fun _ => (safe_applyLocked schema ms).ensure (fun result => ?_) fun e => ?_
    · refine (safe_unlock (stable_finished result) fun s h => hfinish s h result).then fun _ => ?_
      exact safe_ret.mpr fun _ _ h => h
    · refine (safe_unlock (.const True) fun _ _ h => h).then fun _ => ?_
      exact safe_raise.mpr fun _ _ _ => trivial
  unfold MigrationRun.withConnection
  cases run.connection with
  | some autocommit =>
    simp only
    split_ifs
    · exact safe_raise.mpr fun _ _ _ => trivial
    · exact safe_raise.mpr fun _ _ _ => trivial
    · exact hlocked
  | none =>
    simp only
    split_ifs
    · exact safe_raise.mpr fun _ _ _ => trivial
    refine (safe_connect ms).then fun _ => hlocked.ensure (fun result => ?_) fun e => ?_
    · refine (safe_close (stable_finished result) fun s h => hfinish s h result).then fun _ => ?_
      exact safe_ret.mpr fun _ _ h => h
    · refine (safe_close (.const True) fun _ _ h => h).then fun _ => ?_
      exact safe_raise.mpr fun _ _ _ => trivial

end Run

end MigrationDatabase

/-! ## Any runs in any order -/

namespace MigrationRun

open MigrationDatabase

variable {ι : Type} [DecidableEq ι]

abbrev MigrationPool (ι : Type) :=
  Pool migrationCalls (MigrationDatabase ι) ι MigrationError MigrationApplyResult

/-- The runs before their first call, over a schema nothing was applied to. -/
def pool (runs : ι → MigrationRun) (directory : MigrationDirectory) : MigrationPool ι where
  state := .fresh ι directory
  threads i := (runs i).applyMigrations

def semantics (platform : Platform) (ι : Type) [DecidableEq ι] :
    Semantics migrationCalls (MigrationDatabase ι) ι := fun i c => Effect platform i c

theorem safe_pool {platform : Platform} (runs : ι → MigrationRun) {directory : MigrationDirectory}
    {initial : List Migration} (accepted : discoverMigrations platform directory = .ok initial) :
    (pool runs directory).Safe (semantics platform ι) (Inv platform) (Rely platform)
      (Guarantee platform) fun i => OnOk (Finished platform i) :=
  ⟨⟨⟨initial, accepted, List.nil_prefix⟩, rfl⟩,
    fun i => ⟨fun _ => True, .const True, trivial, safe_applyMigrations (runs i)⟩⟩

/-- Along every interleaving of any runs, failing wherever they may: the committed migrations are a
prefix of the local sequence, each once and in the order of their versions, and the history records
exactly them; nothing committed is undone; what a run reads from the directory begins with what stood
there before; and a run that returned read such a sequence, has all of it committed and reported as
applied, and left nothing of it pending. The status of a history is computed without an error exactly
when its rows are those of a prefix, in any order, and then splits the sequence. -/
theorem history_is_prefix {platform : Platform} (runs : ι → MigrationRun)
    {directory : MigrationDirectory} {initial : List Migration}
    (accepted : discoverMigrations platform directory = .ok initial) {p q : MigrationPool ι}
    (before : Pool.Reaches (semantics platform ι) (pool runs directory) p)
    (after : Pool.Reaches (semantics platform ι) p q) :
    (∃ current, discoverMigrations platform p.state.directory = .ok current ∧ initial <+: current ∧
      p.state.rows.map AppliedMigration.identity <+: current.map Migration.identity ∧
      p.state.executed <+: current ∧
      p.state.rows.map AppliedMigration.identity = p.state.executed.map Migration.identity ∧
      (p.state.executed.Pairwise fun a b => a.version < b.version) ∧
      ∀ i ms, q.state.read i = some ms → p.state.read i = some ms ∨ current <+: ms) ∧
    p.state.executed <+: q.state.executed ∧
    (∀ i result, p.threads i = .ret result → result.status.pending = [] ∧
      ∃ ms, p.state.read i = some ms ∧ initial <+: ms ∧ Contiguous ms ∧ ms <+: p.state.executed ∧
        result.status.applied.map AppliedMigration.identity = ms.map Migration.identity) ∧
    ∀ schema historyExists (migrations : List Migration) records,
      (migrations.map Migration.version).Nodup →
      ((∃ status, buildStatus schema historyExists migrations records = .ok status) ↔
        ∃ n, (records.map AppliedMigration.identity).Perm
          ((migrations.take n).map Migration.identity)) ∧
      ∀ status, buildStatus schema historyExists migrations records = .ok status →
        status.applied.map AppliedMigration.identity ++ status.pending.map Migration.identity =
          migrations.map Migration.identity := by
  have hcompat : ∀ i j : ι, i ≠ j → ∀ s s', Guarantee platform i s s' → Rely platform j s s' :=
    fun i j hij _ _ h => ⟨h.grows, h.respects j hij.symm, h.read j hij.symm⟩
  have hsafe := safe_pool runs accepted
  have hp := Pool.sound hcompat hsafe before
  have hgrows : ∀ {p' q' : MigrationPool ι}, p'.Safe (semantics platform ι) (Inv platform)
      (Rely platform) (Guarantee platform) (fun i => OnOk (Finished platform i)) →
      Pool.Reaches (semantics platform ι) p' q' → Grows platform p'.state q'.state :=
    fun h run => Pool.guarantee_of_run hcompat Grows.refl (fun _ _ _ h h' => h.trans h')
      (fun _ _ _ h => h.grows) h run
  refine ⟨?_, (hgrows hp after).executed, fun i result hi => ?_, ?_⟩
  · obtain ⟨current, hcur, hprefix⟩ := hp.1.executed
    obtain ⟨current', hcur', hinitial⟩ := (hgrows hsafe before).directory initial accepted
    cases hcur.symm.trans hcur'
    refine ⟨current, hcur, hinitial, ?_, hprefix, hp.1.rows, ?_, fun i ms hms => ?_⟩
    · rw [hp.1.rows]
      exact hprefix.map _
    · exact (contiguous_of_discover hcur).versions_lt.sublist hprefix.sublist
    · exact ((hgrows hp after).read i ms hms).imp_right fun h => h current hcur
  · obtain ⟨ms, ⟨hread, hcontiguous, -⟩, hprefix, hpending, happlied⟩ : Finished platform i result p.state :=
      hp.returned hi
    have hinitial : initial <+: ms := by
      rcases (hgrows hsafe before).read i ms hread with hstart | hlater
      · cases hstart
      · exact hlater initial accepted
    exact ⟨hpending, ms, hread, hinitial, hcontiguous, hprefix, happlied⟩
  · intro schema historyExists migrations records hnodup
    refine ⟨⟨fun ⟨status, hstatus⟩ => ?_, fun ⟨n, hperm⟩ => ?_⟩, fun status hstatus => ?_⟩
    · obtain ⟨n, hperm, -, -⟩ := buildStatus_spec hnodup hstatus
      exact ⟨n, hperm⟩
    · exact buildStatus_of_prefix hnodup hperm schema historyExists
    · obtain ⟨n, -, happlied, hpending⟩ := buildStatus_spec hnodup hstatus
      rw [happlied, hpending, ← List.map_append, List.take_append_drop]

end MigrationRun

/-! ## Two runs one after the other -/

/-- A database that answers every call, over a directory that then is `directory`. -/
def MigrationCall.serve {ι : Type} [DecidableEq ι] (platform : Platform) (directory : MigrationDirectory)
    (i : ι) : (c : MigrationCall) → MigrationDatabase ι → c.Resp × MigrationDatabase ι
  | .discover, s =>
    let r := discoverMigrations platform directory
    (r, { s with directory := directory, read := Function.update s.read i r.toOption })
  | .connect, s => (.ok (), s)
  | .lock, s =>
    if s.holder.isNone then (.ok (), { s with holder := some i })
    else (.error (.external "QueryCanceled"), s)
  | .ensureHistory, s => (.ok (), { s with history := some s.rows })
  | .readApplied, s =>
    match s.history with
    | none => (.error (.external "UndefinedTable"), s)
    | some rows => (.ok (rows.insertionSort fun a b => a.version ≤ b.version), s)
  | .applyOne m, s =>
    match s.history with
    | none => (.error (.external "UndefinedTable"), s)
    | some rows =>
      if ∀ r ∈ rows, r.version ≠ m.version then
        (.ok (), { s with
          history := some (rows ++ [MigrationDatabase.rowOf m ⟨0, Nat.zero_le _⟩])
          executed := s.executed ++ [m] })
      else (.error (.external "UniqueViolation"), s)
  | .unlock, s =>
    if s.holder = some i then (.ok (some true), { s with holder := none }) else (.ok (some false), s)
  | .close, s => ((), if s.holder = some i then { s with holder := none } else s)

namespace MigrationDatabase

variable {ι : Type} {platform : Platform} {directory : MigrationDirectory}

/-- Every session lives, and the directory may grow to `directory`. -/
def Calm (platform : Platform) (directory : MigrationDirectory) (s : MigrationDatabase ι) : Prop :=
  s.gone = ∅ ∧ Extends platform s.directory directory

variable [DecidableEq ι]

/-- Such a database does with each call one of the things it may do. -/
theorem effect_serve (i : ι) (c : MigrationCall) (s : MigrationDatabase ι) (h : Calm platform directory s) :
    Effect platform i c s (c.serve platform directory i s).1 (c.serve platform directory i s).2 ∧
      Calm platform directory (c.serve platform directory i s).2 := by
  obtain ⟨hgone, hext⟩ := h
  have halive : i ∉ s.gone := hgone ▸ Set.notMem_empty i
  cases c with
  | discover => exact ⟨⟨directory, hext, rfl, rfl⟩, hgone, extends_refl _⟩
  | connect => exact ⟨.inr ⟨rfl, rfl⟩, hgone, hext⟩
  | lock =>
    simp only [MigrationCall.serve]
    split_ifs with hfree
    · exact ⟨.inr ⟨halive, rfl, .inl ⟨Option.isNone_iff_eq_none.mp hfree, rfl⟩⟩, hgone, hext⟩
    · exact ⟨.inl ⟨⟨_, rfl⟩, rfl⟩, hgone, hext⟩
  | ensureHistory => exact ⟨.inr ⟨halive, rfl, rfl⟩, hgone, hext⟩
  | readApplied =>
    simp only [MigrationCall.serve]
    split
    · exact ⟨.inl ⟨⟨_, rfl⟩, rfl⟩, hgone, hext⟩
    · next rows hrows => exact ⟨.inr ⟨halive, rfl, rows, hrows, rfl⟩, hgone, hext⟩
  | applyOne m =>
    simp only [MigrationCall.serve]
    split
    · exact ⟨.inl ⟨⟨_, rfl⟩, rfl⟩, hgone, hext⟩
    · next rows hrows =>
      split_ifs with hnew
      · exact ⟨.inr ⟨halive, ⟨rows, _, hrows, hnew, rfl⟩, .inl rfl⟩, hgone, hext⟩
      · exact ⟨.inl ⟨⟨_, rfl⟩, rfl⟩, hgone, hext⟩
  | unlock =>
    simp only [MigrationCall.serve]
    split_ifs with hheld
    · exact ⟨.inr ⟨halive, .inl ⟨hheld, rfl, rfl⟩⟩, hgone, hext⟩
    · exact ⟨.inr ⟨halive, .inr ⟨hheld, rfl, rfl⟩⟩, hgone, hext⟩
  | close =>
    simp only [MigrationCall.serve]
    by_cases hheld : s.holder = some i
    · simp only [if_pos hheld]
      exact ⟨.inl ⟨hheld, rfl⟩, hgone, hext⟩
    · simp only [if_neg hheld]
      exact ⟨.inr ⟨hheld, rfl⟩, hgone, hext⟩

end MigrationDatabase

namespace MigrationRun

open MigrationDatabase

def sampleFiles : List MigrationFile :=
  [⟨"0001_initial.sql", some "CREATE TABLE t (id INTEGER)"⟩,
    ⟨"0002_named.sql", some "ALTER TABLE t ADD COLUMN name TEXT"⟩]

/-- The directory that holds the first `n` files. -/
def sampleDirectory (n : Nat) : MigrationDirectory := some (sampleFiles.take n)

def samplePlatform : Platform :=
  .ofTable [("CREATE TABLE t (id INTEGER)", .ofNat 1), ("ALTER TABLE t ADD COLUMN name TEXT", .ofNat 2)]

def initialMigration : Migration :=
  ⟨1, "initial", (Digest.ofNat 1).text, "CREATE TABLE t (id INTEGER)", "0001_initial.sql"⟩

def namedMigration : Migration :=
  ⟨2, "named", (Digest.ofNat 2).text, "ALTER TABLE t ADD COLUMN name TEXT", "0002_named.sql"⟩

def sampleRun : MigrationRun := ⟨"public", some "postgresql://localhost/assistant", none⟩

theorem discover_sampleDirectory :
    discoverMigrations samplePlatform (sampleDirectory 1) = .ok [initialMigration] ∧
      discoverMigrations samplePlatform (sampleDirectory 2) = .ok [initialMigration, namedMigration] := by
  decide +kernel

theorem extends_sampleDirectory :
    Extends samplePlatform (sampleDirectory 1) (sampleDirectory 2) := by
  intro ms hms
  cases discover_sampleDirectory.1.symm.trans hms
  exact ⟨_, discover_sampleDirectory.2, _, rfl⟩

/-- A thread that runs alone and returns. -/
theorem reaches_returned {p : MigrationPool Bool} {directory : MigrationDirectory} {i : Bool}
    {o : Except MigrationError MigrationApplyResult × MigrationDatabase Bool}
    (alone : (p.threads i).exec (MigrationCall.serve samplePlatform directory i) p.state = o)
    (calm : Calm samplePlatform directory p.state) (returned : o.1.isOk) :
    ∃ q result, Pool.Reaches (semantics samplePlatform Bool) p q ∧ q.state = o.2 ∧
      q.threads = Function.update p.threads i (.ret result) ∧ Calm samplePlatform directory q.state := by
  have heffect : ∀ c s, Calm samplePlatform directory s →
      semantics samplePlatform Bool i c s (MigrationCall.serve samplePlatform directory i c s).1
          (MigrationCall.serve samplePlatform directory i c s).2 ∧
        Calm samplePlatform directory (MigrationCall.serve samplePlatform directory i c s).2 :=
    effect_serve i
  obtain ⟨hrun, hcalm⟩ := Pool.reaches_of_exec_from heffect calm p.threads
  rw [alone] at hrun hcalm
  obtain ⟨outcome, s⟩ := o
  cases outcome with
  | error e => cases returned
  | ok result => exact ⟨_, result, hrun, rfl, rfl, hcalm⟩

/-- The first run, over the first file. -/
def firstRun : Except MigrationError MigrationApplyResult × MigrationDatabase Bool :=
  sampleRun.applyMigrations.exec (MigrationCall.serve samplePlatform (sampleDirectory 1) false)
    (.fresh Bool (sampleDirectory 1))

theorem firstRun_eq : ((pool (fun _ => sampleRun) (sampleDirectory 1)).threads false).exec
    (MigrationCall.serve samplePlatform (sampleDirectory 1) false)
    (pool (fun _ : Bool => sampleRun) (sampleDirectory 1)).state = firstRun := by
  rw [firstRun]
  rfl

/-- The second run, after the directory grew. -/
def secondRun : Except MigrationError MigrationApplyResult × MigrationDatabase Bool :=
  sampleRun.applyMigrations.exec (MigrationCall.serve samplePlatform (sampleDirectory 2) true) firstRun.2

theorem runs_returned :
    firstRun.1.isOk ∧ firstRun.2.executed = [initialMigration] ∧
      secondRun.1.isOk ∧ secondRun.2.read true = some [initialMigration, namedMigration] := by
  decide +kernel

/-- The first run applies the one migration there is; the directory grows; the second run reads both and
applies the other. -/
theorem reaches_secondRun : ∃ (p q : MigrationPool Bool) (first second : MigrationApplyResult),
    Pool.Reaches (semantics samplePlatform Bool) (pool (fun _ => sampleRun) (sampleDirectory 1)) p ∧
      Pool.Reaches (semantics samplePlatform Bool) p q ∧
      p.threads false = .ret first ∧ p.state.executed = [initialMigration] ∧
      q.threads true = .ret second ∧ q.state.read true = some [initialMigration, namedMigration] := by
  obtain ⟨hfirst, hexecuted, hsecond, hread⟩ := runs_returned
  have hstart : Calm samplePlatform (sampleDirectory 1) (.fresh Bool (sampleDirectory 1)) :=
    ⟨rfl, extends_refl _⟩
  obtain ⟨p, first, hbefore, hp, hthreads, hgone, hext⟩ := reaches_returned
    (p := pool (fun _ => sampleRun) (sampleDirectory 1)) firstRun_eq hstart hfirst
  have hsecond' : (p.threads true).exec (MigrationCall.serve samplePlatform (sampleDirectory 2) true) p.state =
      secondRun := by
    rw [hthreads, hp]
    rfl
  obtain ⟨q, second, hafter, hq, hthreads', -⟩ := reaches_returned hsecond'
    ⟨hgone, hext.trans extends_sampleDirectory⟩ hsecond
  refine ⟨p, q, first, second, hbefore, hafter, ?_, ?_, ?_, ?_⟩
  · rw [hthreads, Function.update_self]
  · rw [hp, hexecuted]
  · rw [hthreads', Function.update_self]
  · rw [hq, hread]

theorem history_is_prefix_sample :
    ∃ (p q : MigrationPool Bool) (first second : MigrationApplyResult),
      Pool.Reaches (semantics samplePlatform Bool) (pool (fun _ => sampleRun) (sampleDirectory 1)) p ∧
      Pool.Reaches (semantics samplePlatform Bool) p q ∧
      p.threads false = .ret first ∧ p.state.executed = [initialMigration] ∧
      q.threads true = .ret second ∧ q.state.read true = some [initialMigration, namedMigration] ∧
      p.state.executed <+: q.state.executed ∧ second.status.pending = [] ∧
      [initialMigration, namedMigration] <+: q.state.executed ∧
      second.status.applied.map AppliedMigration.identity =
        [initialMigration, namedMigration].map Migration.identity := by
  obtain ⟨p, q, first, second, hbefore, hafter, hp, hexecuted, hq, hread⟩ := reaches_secondRun
  obtain ⟨-, hprefix, -, -⟩ := history_is_prefix _ discover_sampleDirectory.1 hbefore hafter
  obtain ⟨-, -, hreturned, -⟩ := history_is_prefix _ discover_sampleDirectory.1 (hbefore.trans hafter) .refl
  obtain ⟨hpending, ms, hms, -, -, hcommitted, happlied⟩ := hreturned true second hq
  cases hread.symm.trans hms
  exact ⟨p, q, first, second, hbefore, hafter, hp, hexecuted, hq, hread, hprefix, hpending, hcommitted, happlied⟩

end MigrationRun

end PersonalAssistant
